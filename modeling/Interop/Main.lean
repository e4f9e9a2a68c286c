import Interop.CommandLine.Run

/-! The program: reads the files that its arguments name and prints what the run leaves. -/

namespace Interop.CommandLine

def readText (path : String) : IO (Except String (List Char)) := do
  try
    let bytes ← IO.FS.readBinFile path
    match String.fromUTF8? bytes with
    | some text => return .ok text.toList
    | none => return .error "stream did not contain valid UTF-8"
  catch
    | .noFileOrDirectory .. => return .error FileError.missing.message
    | .inappropriateType _ code _ =>
      return .error (if code = 21 then FileError.isADirectory.message else FileError.notADirectory.message)
    | .permissionDenied .. => return .error "Permission denied (os error 13)"
    | error => return .error (toString error)

def runOnFiles (args : List String) : IO UInt32 := do
  let paths := match Invocation.ofArguments args with
    | .ok invocation => invocation.paths
    | .error _ => []
  let contents ← paths.mapM fun path => do return (path, ← readText path)
  let files : Files := fun path =>
    match contents.find? fun entry => entry.1 == path with
    | some (_, text) => text
    | none => .error FileError.missing.message
  let outcome := run files args
  IO.print outcome.stdout
  IO.eprint outcome.stderr
  return UInt32.ofNat outcome.exit

end Interop.CommandLine

def main (args : List String) : IO UInt32 := Interop.CommandLine.runOnFiles args
