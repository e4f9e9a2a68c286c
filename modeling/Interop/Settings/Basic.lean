import Interop.Marshal.Conversion
import Interop.Memory.Scratch
import Interop.Toml.Basic

/-! Settings of a session: how values are narrowed, how large the scratch stack is, and for which platform. -/
namespace Interop

structure WidthOverride where
  pointer : Nat
  long : Nat
deriving DecidableEq, Repr

structure Settings where
  narrowing : Narrowing
  stackSize : Nat
  stackAlignment : Nat
  widths : Option WidthOverride
deriving DecidableEq, Repr

inductive SettingsError where
  | unreadable (path reason : String)
  | malformed (fault : Toml.Fault)
  | unsupportedPlatform (pointer long : Nat)
deriving DecidableEq, Repr

def SettingsError.message : SettingsError → String
  | unreadable path reason => s!"Failed to read config file '{path}': {reason}"
  | malformed fault => s!"Failed to parse config: {fault.message}"
  | unsupportedPlatform pointer long =>
    s!"Invalid config: unsupported platform: pointer width {pointer} and long width {long} "
      ++ "(each must be 4 or 8, long no wider than a pointer)"

namespace Settings

def standard : Settings := ⟨.checked, Scratch.defaultSize, Scratch.defaultAlignment, none⟩

def withNarrowing (settings : Settings) (narrowing : Narrowing) : Settings :=
  { settings with narrowing }

def withStack (settings : Settings) (size alignment : Nat) : Settings :=
  { settings with stackSize := size, stackAlignment := alignment }

def withPlatform (settings : Settings) (platform : Platform) : Settings :=
  { settings with widths := some ⟨platform.pointer.bytes, platform.long.bytes⟩ }

def platform (settings : Settings) : Except SettingsError Platform :=
  match settings.widths with
  | none => .ok .host
  | some widths =>
    match Platform.ofBytes? widths.pointer widths.long with
    | some platform => .ok platform
    | none => .error (.unsupportedPlatform widths.pointer widths.long)

def scratch (settings : Settings) : EStateM MemoryError Store Scratch :=
  Scratch.new settings.stackSize settings.stackAlignment

end Settings
end Interop
