import Interop.Number.Words

/-! Hexadecimal text of words and bytes, in lower case. -/
namespace Interop.Hex

def digit (value : Nat) : Char :=
  Char.ofNat (if value % 16 < 10 then 48 + value % 16 else 87 + value % 16)

/-- The last `count` digits of `value`, the most significant first. -/
def digits : (count : Nat) → (value : Nat) → List Char
  | 0, _ => []
  | count + 1, value => digits count (value / 16) ++ [digit value]

theorem length_digits (count value : Nat) : (digits count value).length = count := by
  induction count generalizing value with
  | zero => rfl
  | succ count ih => simp [digits, ih]

def byte (value : UInt8) : String := String.ofList (digits 2 value.toNat)

def value? (c : Char) : Option Nat :=
  if '0' ≤ c ∧ c ≤ '9' then some (c.toNat - '0'.toNat)
  else if 'a' ≤ c ∧ c ≤ 'f' then some (c.toNat - 'a'.toNat + 10)
  else if 'A' ≤ c ∧ c ≤ 'F' then some (c.toNat - 'A'.toNat + 10)
  else none

theorem value?_digit (value : Nat) : value? (digit value) = some (value % 16) := by
  have small : value % 16 < 16 := Nat.mod_lt _ (by decide)
  have each : ∀ d < 16, value? (digit d) = some d := by decide
  have same : digit value = digit (value % 16) := by simp [digit]
  rw [same, each _ small]

def number? (digits : List Char) : Option Nat :=
  digits.foldlM (fun total c => (value? c).map fun digit => total * 16 + digit) 0

theorem number?_digits (count value : Nat) : number? (digits count value) = some (value % 16 ^ count) := by
  induction count generalizing value with
  | zero => simp [number?, digits, Nat.mod_one]
  | succ count ih =>
    unfold number? at ih ⊢
    rw [digits, List.foldlM_append, ih]
    have whole : value % 16 ^ (count + 1) = value / 16 % 16 ^ count * 16 + value % 16 := by
      rw [Nat.pow_succ, Nat.mul_comm (16 ^ count) 16, Nat.mod_mul]
      omega
    simp [value?_digit, whole]

end Interop.Hex
