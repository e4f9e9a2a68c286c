import Interop.Call.Code
import Interop.Declaration.Basic
import Interop.Settings.Basic

/-! Any failure of the library, by the part that it comes from. -/
namespace Interop

inductive Failure where
  | memory (error : MemoryError)
  | marshal (error : MarshalError)
  | layout (error : LayoutError)
  | bind (error : BindError)
  | call (error : CallError)
  | settings (error : SettingsError)
deriving DecidableEq, Repr

namespace Failure

def message : Failure → String
  | memory error => error.message
  | marshal error => error.message
  | layout error => error.message
  | bind error => error.message
  | call error => error.message
  | settings error => error.message

def isMemory : Failure → Bool
  | memory _ => true
  | _ => false

def isMarshal : Failure → Bool
  | marshal _ => true
  | _ => false

def isLayout : Failure → Bool
  | layout _ => true
  | _ => false

def isBind : Failure → Bool
  | bind _ => true
  | _ => false

def isCall : Failure → Bool
  | call _ => true
  | _ => false

def isSettings : Failure → Bool
  | settings _ => true
  | _ => false

def isNotFound : Failure → Bool
  | bind error => error.isNotFound
  | _ => false

end Failure
end Interop
