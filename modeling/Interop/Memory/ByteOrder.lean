import Interop.Number.Words

/-! Numbers as byte strings of a given length, least significant byte first, and the other byte orders.
Main statements: a number comes back from its bytes reduced to their range, and bytes come back from their number. -/
namespace Interop

namespace Bytes

/-- The `count` low bytes of a number, the least significant first. -/
def ofNat : (count : Nat) → (value : Nat) → List UInt8
  | 0, _ => []
  | count + 1, value => UInt8.ofNat value :: ofNat count (value / 256)

def toNat : List UInt8 → Nat
  | [] => 0
  | byte :: rest => byte.toNat + 256 * toNat rest

@[simp] theorem length_ofNat (count value : Nat) : (ofNat count value).length = count := by
  induction count generalizing value with
  | zero => rfl
  | succ count ih => simp [ofNat, ih]

theorem toNat_lt (bytes : List UInt8) : toNat bytes < 256 ^ bytes.length := by
  induction bytes with
  | nil => simp [toNat]
  | cons byte rest ih =>
    have bound := byte.toNat_lt
    simp only [toNat, List.length_cons, Nat.pow_succ]
    omega

theorem toNat_ofNat (count value : Nat) : toNat (ofNat count value) = value % 256 ^ count := by
  induction count generalizing value with
  | zero => simp [ofNat, toNat, Nat.mod_one]
  | succ count ih =>
    have low : (UInt8.ofNat value).toNat = value % 256 := UInt8.toNat_ofNat'
    rw [ofNat, toNat, ih, low, Nat.pow_succ, Nat.mul_comm (256 ^ count) 256, Nat.mod_mul]

theorem ofNat_toNat (bytes : List UInt8) : ofNat bytes.length (toNat bytes) = bytes := by
  induction bytes with
  | nil => rfl
  | cons byte rest ih =>
    have bound := byte.toNat_lt
    have low : UInt8.ofNat (byte.toNat + 256 * toNat rest) = byte := by
      apply UInt8.toNat.inj
      simp only [UInt8.toNat_ofNat']
      omega
    have high : (byte.toNat + 256 * toNat rest) / 256 = toNat rest := by omega
    simp [ofNat, toNat, low, high, ih]

end Bytes

/-- The order of the bytes of a number; the host stores the least significant first. -/
inductive ByteOrder where
  | native
  | little
  | big
deriving DecidableEq, Repr

/-- Puts the least significant byte first, or puts it back. -/
def ByteOrder.arrange : ByteOrder → List UInt8 → List UInt8
  | big, bytes => bytes.reverse
  | native, bytes | little, bytes => bytes

@[simp] theorem ByteOrder.length_arrange (order : ByteOrder) (bytes : List UInt8) :
    (order.arrange bytes).length = bytes.length := by
  cases order <;> simp [arrange]

@[simp] theorem ByteOrder.arrange_arrange (order : ByteOrder) (bytes : List UInt8) :
    order.arrange (order.arrange bytes) = bytes := by
  cases order <;> simp [arrange]

end Interop
