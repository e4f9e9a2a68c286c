import Interop.Number.Alignment
import Mathlib.Order.Bounds.Basic

/-! Rounding to multiples of an alignment as extremal problems over exact numbers.
Main statements: `forward?` finds the least multiple not below a value exactly when that multiple is a word,
and `backward` finds the greatest multiple not above it. -/
namespace Interop.Alignment

def multiplesFrom (alignment value : Nat) : Set Nat := {m | alignment ∣ m ∧ value ≤ m}

def multiplesTo (alignment value : Nat) : Set Nat := {m | alignment ∣ m ∧ m ≤ value}

/-- Rounding up among all numbers, words or not. -/
def roundUp (value alignment : Nat) : Nat :=
  value + (alignment - 1) - (value + (alignment - 1)) % alignment

private theorem isGreatest_sub_mod (alignment value : Nat) :
    IsGreatest (multiplesTo alignment value) (value - value % alignment) := by
  refine ⟨⟨Nat.dvd_sub_mod value, Nat.sub_le _ _⟩, ?_⟩
  rintro m ⟨⟨k, rfl⟩, below⟩
  have split := Nat.div_add_mod value alignment
  rcases Nat.eq_zero_or_pos alignment with rfl | positive
  · simp
  · have quotient : k ≤ value / alignment := by
      rw [Nat.le_div_iff_mul_le positive, Nat.mul_comm]
      exact below
    have scaled := Nat.mul_le_mul_left alignment quotient
    omega

theorem isLeast_roundUp {alignment : Nat} (positive : 0 < alignment) (value : Nat) :
    IsLeast (multiplesFrom alignment value) (roundUp value alignment) := by
  obtain ⟨⟨divides, _⟩, greatest⟩ := isGreatest_sub_mod alignment (value + (alignment - 1))
  have remainder := Nat.mod_lt (value + (alignment - 1)) positive
  refine ⟨⟨divides, by unfold roundUp; omega⟩, ?_⟩
  rintro m ⟨multiple, above⟩
  -- A smaller multiple would leave room for another one below `value + (alignment - 1)`.
  by_contra less
  have room : m + alignment ≤ roundUp value alignment := by
    obtain ⟨k, rfl⟩ := multiple
    obtain ⟨l, rounded⟩ := divides
    unfold roundUp at less ⊢
    rw [rounded] at less ⊢
    have quotient : k < l := Nat.lt_of_mul_lt_mul_left (Nat.lt_of_not_le less)
    calc alignment * k + alignment = alignment * (k + 1) := (Nat.mul_succ _ _).symm
      _ ≤ alignment * l := Nat.mul_le_mul_left _ quotient
  unfold roundUp at room
  omega

theorem roundUp_of_dvd {value alignment : Nat} (positive : 0 < alignment) (divides : alignment ∣ value) :
    roundUp value alignment = value :=
  (isLeast_roundUp positive value).unique ⟨⟨divides, Nat.le_refl _⟩, fun _ above => above.2⟩

theorem backward_isGreatest {alignment : Nat} (power : alignment.isPowerOfTwo) (value : Nat) :
    IsGreatest (multiplesTo alignment value) (backward value alignment) := by
  rw [backward_eq power]
  exact isGreatest_sub_mod alignment value

private theorem addWords?_eq_some_iff {a b sum : Nat} :
    addWords? a b = some sum ↔ sum = a + b ∧ sum < wordBound := by
  unfold addWords?
  split <;> simp <;> omega

theorem mulWords?_eq_some_iff {a b product : Nat} :
    mulWords? a b = some product ↔ product = a * b ∧ product < wordBound := by
  unfold mulWords?
  split <;> simp <;> omega

theorem forward?_eq_some_iff_backward {value alignment result : Nat} :
    forward? value alignment = some result ↔
      0 < alignment ∧ value + (alignment - 1) < wordBound ∧
        result = backward (value + (alignment - 1)) alignment := by
  unfold forward?
  split
  · simp; omega
  · simp only [Option.map_eq_some_iff, addWords?_eq_some_iff]
    constructor
    · rintro ⟨sum, ⟨rfl, word⟩, rfl⟩
      exact ⟨by omega, word, rfl⟩
    · rintro ⟨_, word, rfl⟩
      exact ⟨_, ⟨rfl, word⟩, rfl⟩

theorem le_of_forward? {value alignment result : Nat} (rounded : forward? value alignment = some result) :
    value ≤ result := by
  -- Clearing low bits takes away less than the alignment, power of two or not.
  obtain ⟨positive, _, rfl⟩ := forward?_eq_some_iff_backward.mp rounded
  have cleared : (value + (alignment - 1)) &&& lowMask alignment ≤ alignment - 1 := by
    rw [lowMask, if_neg (by omega)]
    exact Nat.and_le_right
  unfold backward
  omega

theorem isLeast_of_forward? {value alignment result : Nat} (power : alignment.isPowerOfTwo)
    (rounded : forward? value alignment = some result) :
    IsLeast (multiplesFrom alignment value) result := by
  obtain ⟨positive, _, rfl⟩ := forward?_eq_some_iff_backward.mp rounded
  rw [backward_eq power]
  exact isLeast_roundUp positive value

/-- Words end at a multiple of every alignment that is a word, so the sum before rounding is a word
exactly when the rounded value is. -/
theorem forward?_eq_some_iff {value alignment result : Nat} (power : alignment.isPowerOfTwo)
    (word : alignment < wordBound) :
    forward? value alignment = some result ↔ result = roundUp value alignment ∧ result < wordBound := by
  obtain ⟨exponent, rfl⟩ := power
  have divides : 2 ^ exponent ∣ wordBound :=
    Nat.pow_dvd_pow 2 (Nat.le_of_lt ((Nat.pow_lt_pow_iff_right (by decide)).mp word))
  have positive : 0 < 2 ^ exponent := Nat.two_pow_pos exponent
  rw [forward?_eq_some_iff_backward, backward_eq ⟨exponent, rfl⟩, ← roundUp]
  obtain ⟨⟨_, above⟩, least⟩ := isLeast_roundUp positive value
  have bound : value + (2 ^ exponent - 1) < wordBound ↔ roundUp value (2 ^ exponent) < wordBound := by
    constructor
    · intro below
      exact Nat.lt_of_le_of_lt (Nat.sub_le _ _) below
    · intro below
      by_contra large
      obtain ⟨⟨multiple, _⟩, greatest⟩ :=
        isGreatest_sub_mod (2 ^ exponent) (value + (2 ^ exponent - 1))
      have reached : wordBound ≤ roundUp value (2 ^ exponent) := greatest ⟨divides, by omega⟩
      omega
  rw [bound]
  constructor
  · rintro ⟨_, below, rfl⟩
    exact ⟨rfl, below⟩
  · rintro ⟨rfl, below⟩
    exact ⟨positive, below, rfl⟩

theorem forward?_of_dvd {value alignment : Nat} (power : alignment.isPowerOfTwo) (word : alignment < wordBound)
    (divides : alignment ∣ value) (below : value < wordBound) : forward? value alignment = some value := by
  have same := roundUp_of_dvd (Nat.pos_of_isPowerOfTwo power) divides
  exact (forward?_eq_some_iff power word).mpr ⟨same.symm, below⟩

end Interop.Alignment
