import Interop.Number.Words

/-! Reading bytes as UTF-8 where some of them may be invalid.
Each maximal part that could have begun a character becomes one replacement character. -/
namespace Interop.Utf8

def replacement : Char := Char.ofNat 0xFFFD

/-- How many bytes follow a leading byte, with the bounds of the first of them. -/
def follow? (lead : Nat) : Option (Nat × Nat × Nat) :=
  if lead < 0x80 then some (0, 0x80, 0xBF)
  else if 0xC2 ≤ lead ∧ lead ≤ 0xDF then some (1, 0x80, 0xBF)
  else if lead = 0xE0 then some (2, 0xA0, 0xBF)
  else if lead = 0xED then some (2, 0x80, 0x9F)
  else if 0xE1 ≤ lead ∧ lead ≤ 0xEF then some (2, 0x80, 0xBF)
  else if lead = 0xF0 then some (3, 0x90, 0xBF)
  else if lead = 0xF4 then some (3, 0x80, 0x8F)
  else if 0xF1 ≤ lead ∧ lead ≤ 0xF3 then some (3, 0x80, 0xBF)
  else none

/-- The payload of the following bytes, or how many of them are valid before one that is not. -/
def continuation : (count low high : Nat) → (bytes : List UInt8) → Except Nat Nat
  | 0, _, _, _ => .ok 0
  | _ + 1, _, _, [] => .error 0
  | count + 1, low, high, byte :: rest =>
    if low ≤ byte.toNat ∧ byte.toNat ≤ high then
      match continuation count 0x80 0xBF rest with
      | .ok payload => .ok ((byte.toNat - 0x80) * 64 ^ count + payload)
      | .error valid => .error (valid + 1)
    else .error 0

def leadPayload (lead : Nat) : Nat → Nat
  | 0 => lead
  | 1 => lead % 0x20 * 64
  | 2 => lead % 0x10 * 64 ^ 2
  | _ => lead % 0x08 * 64 ^ 3

def step (lead : UInt8) (rest : List UInt8) : Char × Nat :=
  match follow? lead.toNat with
  | none => (replacement, 0)
  | some (count, low, high) =>
    match continuation count low high rest with
    | .ok payload => (Char.ofNat (leadPayload lead.toNat count + payload), count)
    | .error valid => (replacement, valid)

def decode : List UInt8 → List Char
  | [] => []
  | lead :: rest =>
    let (c, count) := step lead rest
    c :: decode (rest.drop count)
termination_by bytes => bytes.length
decreasing_by
  simp only [List.length_drop, List.length_cons]
  omega

def decodeString (bytes : List UInt8) : String := String.ofList (decode bytes)

end Interop.Utf8
