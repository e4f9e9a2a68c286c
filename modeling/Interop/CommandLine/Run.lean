import Interop.CommandLine.Arguments
import Interop.CommandLine.Directory
import Interop.Declaration.Parser
import Interop.Library.CRoutines
import Interop.Library.Linking
import Interop.Record.StructType
import Interop.Settings.Reader

/-! What the commands do: show the host's widths, show struct layouts, and call one declared function.
A failure is reported with the causes behind it. -/
namespace Interop.CommandLine

/-- A failure and what lies behind it, the nearest cause first. -/
structure Report where
  message : String
  causes : List String
deriving DecidableEq, Repr

namespace Report

def plain (message : String) : Report := ⟨message, []⟩

def within (context : String) (inner : Report) : Report := ⟨context, inner.message :: inner.causes⟩

def ofSettings (error : SettingsError) : Report := plain error.message

def ofBind (error : BindError) : Report := plain error.message

def ofLayout (error : LayoutError) : Report := plain error.message

def ofMemory (error : MemoryError) : Report := plain error.message

/-- A call fails because of a conversion or of its scratch memory. -/
def ofCall (error : CallError) : Report :=
  ⟨error.message, match error with
    | .arityMismatch .. => []
    | .argument _ _ source => [source.message]
    | .result _ source => [source.message]
    | .scratch _ source => [source.message]⟩

def indent (indentation text : String) : String :=
  String.ofList (text.toList.flatMap fun c => if c = '\n' then c :: indentation.toList else [c])

def causeLines : (index : Nat) → List String → String
  | _, [] => ""
  | index, cause :: rest => s!"    {index}: " ++ indent "       " cause ++ "\n" ++ causeLines (index + 1) rest

/-- The message and its causes, which are numbered where there are more than one. -/
def text (report : Report) : String :=
  let causes := match report.causes with
    | [] => ""
    | [cause] => "\nCaused by:\n    " ++ indent "    " cause ++ "\n"
    | causes => "\nCaused by:\n" ++ causeLines 0 causes
  s!"Error: {report.message}\n" ++ causes

end Report

structure Outcome where
  exit : Nat
  stdout : String
  stderr : String
deriving DecidableEq, Repr

/-- Output as far as it got, and the failure that ended it. -/
structure Printed where
  output : String
  failure : Option Report

def Printed.outcome (printed : Printed) : Outcome :=
  match printed.failure with
  | none => ⟨0, printed.output, ""⟩
  | some report => ⟨1, printed.output, report.text⟩

def platformText (platform : Platform) : String :=
  s!"{platform.text}\npointer: {platform.pointer.bytes} bytes\nlong:    {platform.long.bytes} bytes\n"

def declarationsOf (files : Files) (path : String) (platform : Platform) : Except Report Declarations :=
  (Declarations.parseFile path (files path) platform).mapError fun error =>
    (Report.ofBind error).within s!"in {path}"

/-- The platform of given widths, or else the one of the settings. -/
def layoutPlatform (settings : Settings) : Option (Nat × Nat) → Except Report Platform
  | some (pointer, long) =>
    match Platform.ofBytes? pointer long with
    | some platform => .ok platform
    | none => .error (.plain s!"unsupported widths: pointer {pointer}, long {long}")
  | none => settings.platform.mapError .ofSettings

def printLayouts (path : String) (platform : Platform) (declarations : Declarations) (struct : Option String) :
    Printed :=
  let chosen := declarations.structs.filter fun layout => struct.all (· == layout.name)
  let output := s!"# {platform.text}\n" ++ String.join (chosen.map fun layout => (StructType.ofLayout layout).text)
  if chosen.isEmpty then
    match struct with
    | some name => ⟨output, some (.plain s!"no struct named '{name}' in {path}")⟩
    | none => ⟨output ++ "(no structs declared)\n", none⟩
  else ⟨output, none⟩

def runLayout (files : Files) (settings : Settings) (path : String) (struct : Option String)
    (widths : Option (Nat × Nat)) : Except Report Printed := do
  let platform ← layoutPlatform settings widths
  let declarations ← declarationsOf files path platform
  .ok (printLayouts path platform declarations struct)

inductive ArgumentError where
  | integer (error : Reading.IntegerError)
  | float (error : Reading.FloatError)
  | struct
deriving DecidableEq, Repr

def ArgumentError.message : ArgumentError → String
  | integer error => error.message
  | float error => error.message
  | struct => "structs cannot be passed on the command line"

/-- An address in hexadecimal after its mark, or in decimal. -/
def parseAddress (text : List Char) : Except Reading.IntegerError Address :=
  Address.ofNat <$> match text with
    | '0' :: 'x' :: digits | '0' :: 'X' :: digits => Reading.unsigned 16 (2 ^ 64 - 1) digits
    | _ => Reading.unsigned 10 (2 ^ 64 - 1) text

def parseValue (text : List Char) (kind : ManagedKind) : Except ArgumentError Value :=
  let signed (limit : Nat) (make : Int → Value) : Except ArgumentError Value :=
    make <$> (Reading.signed 10 limit text).mapError .integer
  let unsigned (limit : Nat) (make : Nat → Value) : Except ArgumentError Value :=
    make <$> (Reading.unsigned 10 limit text).mapError .integer
  match kind with
  | .i8 => signed (2 ^ 7 - 1) fun z => .i8 (.ofInt z)
  | .u8 => unsigned (2 ^ 8 - 1) fun n => .u8 (.ofNat n)
  | .i16 => signed (2 ^ 15 - 1) fun z => .i16 (.ofInt z)
  | .u16 => unsigned (2 ^ 16 - 1) fun n => .u16 (.ofNat n)
  | .i32 => signed (2 ^ 31 - 1) fun z => .i32 (.ofInt z)
  | .u32 => unsigned (2 ^ 32 - 1) fun n => .u32 (.ofNat n)
  | .i64 => signed (2 ^ 63 - 1) fun z => .i64 (.ofInt z)
  | .u64 => unsigned (2 ^ 64 - 1) fun n => .u64 (.ofNat n)
  | .f32 => (fun bits => .f32 (.ofNat bits)) <$> (Reading.float .single text).mapError .float
  | .f64 => (fun bits => .f64 (.ofNat bits)) <$> (Reading.float .double text).mapError .float
  | .address => .address <$> (parseAddress text).mapError .integer
  | .struct => .error .struct

def parseValues : List (AbiType × String) → Except Report (List Value)
  | [] => .ok []
  | (type, arg) :: rest => do
    let value ← (parseValue arg.toList type.kind).mapError fun error =>
      (Report.plain error.message).within s!"argument '{arg}' as {type.text}"
    let values ← parseValues rest
    .ok (value :: values)

structure Prepared where
  signature : Signature
  values : List Value

def prepareCall (files : Files) (settings : Settings) (path symbol : String) (args : List String) :
    Except Report Prepared := do
  let declarations ← declarationsOf files path .host
  let some function := declarations.function? symbol
    | .error (.plain s!"'{symbol}' is not declared in {path}")
  let signature ← (function.signature .host).mapError .ofLayout
  let signature := signature.withNarrowing settings.narrowing
  if args.length ≠ signature.arity then
    .error (.plain s!"{symbol} takes {signature.arity} argument(s), got {args.length}")
  else
    let values ← parseValues (signature.params.zip args)
    .ok ⟨signature, values⟩

/-- Calls a function of a library, which is opened once the arguments have been read. -/
def runCall {World : Type} (load : String → Except BindError (NativeLibrary World)) (world : World) (files : Files)
    (settings : Settings) (library path symbol : String) (args : List String) : Except Report Printed := do
  let prepared ← prepareCall files settings path symbol args
  match settings.scratch Store.initial with
  | .error error _ => .error ((Report.ofMemory error).within "creating the scratch stack")
  | .ok scratch store =>
    let loaded ← (load library).mapError .ofBind
    let downcall ← (loaded.bind symbol prepared.signature).mapError .ofBind
    match Scratch.withFrame (fun frame => downcall.invokeIn frame prepared.values) ⟨store, scratch, world⟩ with
    | .ok (some value) _ => .ok ⟨value.text ++ "\n", none⟩
    | .ok none _ => .ok ⟨"(void)\n", none⟩
    | .error error _ => .error (.ofCall error)

def settingsOf (files : Files) : Option String → Except Report Settings
  | none => .ok .standard
  | some path => (Settings.ofFile path (files path)).mapError .ofSettings

def Invocation.print (invocation : Invocation) (files : Files) : Except Report Printed := do
  let settings ← settingsOf files invocation.config
  match invocation.command with
  | .platform => .ok ⟨platformText .host, none⟩
  | .layout path struct widths => runLayout files settings path struct widths
  | .call library path symbol args =>
    runCall (NativeLibrary.load CRoutines.process) () files settings library path symbol args

def Invocation.run (invocation : Invocation) (files : Files) : Outcome :=
  match invocation.print files with
  | .ok printed => printed.outcome
  | .error report => (Printed.mk "" (some report)).outcome

def usage : String :=
  "Usage: interop [--config FILE] COMMAND\n\nCommands:\n"
    ++ "  platform\n"
    ++ "  layout DECLARATIONS [--struct NAME] [--pointer-width BYTES --long-width BYTES]\n"
    ++ "  call LIBRARY DECLARATIONS SYMBOL [ARGUMENT]...\n"

/-- Arguments that name no invocation end the run with the usage. -/
def run (files : Files) (args : List String) : Outcome :=
  match Invocation.ofArguments args with
  | .ok invocation => invocation.run files
  | .error .help => ⟨0, usage, ""⟩
  | .error _ => ⟨2, "", usage⟩

end Interop.CommandLine
