import Interop.Text.Hex

/-! Machine addresses, which are words without any promise that something lies there. -/
namespace Interop

structure Address where
  bits : UInt64
deriving DecidableEq, Repr, Inhabited

namespace Address

def null : Address := ⟨0⟩

def ofNat (value : Nat) : Address := ⟨UInt64.ofNat value⟩

def toNat (address : Address) : Nat := address.bits.toNat

def isNull (address : Address) : Bool := address == null

/-- Only powers of two are alignments, so nothing is aligned to another number. -/
def isAlignedTo (address : Address) (alignment : Nat) : Bool :=
  decide (alignment.isPowerOfTwo ∧ address.toNat % alignment = 0)

def text (address : Address) : String :=
  String.ofList ('<' :: Hex.digits 16 address.toNat ++ ['>'])

instance : Ord Address := ⟨fun a b => compare a.bits b.bits⟩

end Address
end Interop
