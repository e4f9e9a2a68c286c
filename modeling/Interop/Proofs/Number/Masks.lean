import Interop.Proofs.Number.Rounding

/-! Rounding by masks, and the multiples that it finds.
Main statement: `rounding_exact`, for every word and every alignment that is one. -/
namespace Interop

/-! ## The same on words -/

theorem Words.checkedAdd_eq (left right : UInt64) :
    checkedAdd left right = if left.toNat + right.toNat < wordBound then some (left + right) else none := by
  have first := left.toNat_lt
  have second := right.toNat_lt
  unfold checkedAdd wordBound
  simp only [UInt64.lt_iff_toNat_lt, UInt64.toNat_add]
  split <;> split <;> first | rfl | omega

namespace Alignment

private theorem toNat_and_add_and_not (value mask : UInt64) :
    (value &&& ~~~mask).toNat + (value &&& mask).toNat = value.toNat := by
  have apart : (value &&& ~~~mask).toBitVec &&& (value &&& mask).toBitVec = 0#64 := by
    ext i
    cases bit : mask.toBitVec[i] <;> simp [bit]
  have whole : (value &&& ~~~mask).toBitVec ||| (value &&& mask).toBitVec = value.toBitVec := by
    ext i
    cases bit : mask.toBitVec[i] <;> simp [bit]
  rw [← BitVec.add_eq_or_of_and_eq_zero _ _ apart] at whole
  exact (BitVec.toNat_add_of_and_eq_zero apart).symm.trans (congrArg BitVec.toNat whole)

private theorem toNat_sub_one (alignment : UInt64) : (alignment - 1).toNat = lowMask alignment.toNat := by
  unfold lowMask wordBound
  split
  next zero =>
    have none : alignment = 0 := UInt64.toNat_inj.mp zero
    rw [none]
    rfl
  next positive =>
    rw [UInt64.toNat_sub_of_le]
    · rfl
    · rw [UInt64.le_iff_toNat_le]
      exact Nat.one_le_iff_ne_zero.mpr positive

theorem toNat_maskBackward (value alignment : UInt64) :
    (maskBackward value alignment).toNat = backward value.toNat alignment.toNat := by
  have parts := toNat_and_add_and_not value (alignment - 1)
  rw [UInt64.toNat_and value (alignment - 1), toNat_sub_one] at parts
  unfold maskBackward backward
  omega

private theorem maskForward?_eq (value alignment : UInt64) :
    (maskForward? value alignment).map UInt64.toNat = forward? value.toNat alignment.toNat := by
  unfold maskForward? Words.checkedSub
  by_cases zero : alignment.toNat = 0
  · have small : alignment < 1 := by
      rw [UInt64.lt_iff_toNat_lt, zero]
      exact Nat.one_pos
    rw [if_pos small, forward?, if_pos zero]
    rfl
  · have large : ¬ alignment < 1 := by
      rw [UInt64.lt_iff_toNat_lt]
      exact fun small => zero (Nat.lt_one_iff.mp small)
    have mask : (alignment - 1).toNat = alignment.toNat - 1 := by
      rw [toNat_sub_one, lowMask, if_neg zero]
    rw [if_neg large, Option.bind_eq_bind, Option.bind_some, Words.checkedAdd_eq, mask, forward?, if_neg zero, addWords?]
    split
    next word =>
      have sum : (value + (alignment - 1)).toNat = value.toNat + (alignment.toNat - 1) := by
        rw [UInt64.toNat_add, mask]
        exact Nat.mod_eq_of_lt word
      exact congrArg some ((toNat_maskBackward _ alignment).trans (by rw [sum]))
    next => rfl

/-! ## Multiples -/

variable {value alignment : Nat}

private theorem forward?_eq_some_iff_isLeast (power : alignment.isPowerOfTwo) (word : alignment < wordBound)
    {result : Nat} :
    forward? value alignment = some result ↔
      IsLeast (multiplesFrom alignment value) result ∧ result < wordBound := by
  have least := isLeast_roundUp (Nat.pos_of_isPowerOfTwo power) value
  rw [forward?_eq_some_iff power word]
  constructor
  · rintro ⟨rfl, below⟩
    exact ⟨least, below⟩
  · rintro ⟨other, below⟩
    exact ⟨other.unique least, below⟩

private theorem forward?_eq_none_iff_isLeast (power : alignment.isPowerOfTwo) (word : alignment < wordBound) :
    forward? value alignment = none ↔ ∃ result, IsLeast (multiplesFrom alignment value) result ∧ wordBound ≤ result := by
  -- There always is a least multiple, so rounding up is refused only where it is no word.
  have least := isLeast_roundUp (Nat.pos_of_isPowerOfTwo power) value
  rw [Option.eq_none_iff_forall_ne_some]
  constructor
  · intro refused
    refine ⟨_, least, ?_⟩
    by_contra below
    exact refused _ ((forward?_eq_some_iff_isLeast power word).mpr ⟨least, Nat.lt_of_not_le below⟩)
  · rintro ⟨result, other, beyond⟩ found rounded
    obtain ⟨same, below⟩ := (forward?_eq_some_iff_isLeast power word).mp rounded
    cases same.unique other
    omega

private theorem backward_of_dvd (power : alignment.isPowerOfTwo) (divides : alignment ∣ value) :
    backward value alignment = value :=
  (backward_isGreatest power value).unique ⟨⟨divides, Nat.le_refl _⟩, fun _ below => below.2⟩

private theorem backward_mono (power : alignment.isPowerOfTwo) {larger : Nat} (le : value ≤ larger) :
    backward value alignment ≤ backward larger alignment := by
  obtain ⟨⟨divides, below⟩, _⟩ := backward_isGreatest power value
  exact (backward_isGreatest power larger).2 ⟨divides, below.trans le⟩

private theorem forward?_mono (power : alignment.isPowerOfTwo) (word : alignment < wordBound) {larger bound : Nat}
    (le : value ≤ larger) (rounded : forward? larger alignment = some bound) :
    ∃ result, forward? value alignment = some result ∧ result ≤ bound := by
  obtain ⟨⟨⟨divides, above⟩, _⟩, below⟩ := (forward?_eq_some_iff_isLeast power word).mp rounded
  have least := isLeast_roundUp (Nat.pos_of_isPowerOfTwo power) value
  have smaller : roundUp value alignment ≤ bound := least.2 ⟨divides, le.trans above⟩
  exact ⟨_, (forward?_eq_some_iff_isLeast power word).mpr ⟨least, smaller.trans_lt below⟩, smaller⟩

private theorem forward?_eq_backward_iff (power : alignment.isPowerOfTwo) (word : alignment < wordBound)
    (small : value < wordBound) : forward? value alignment = some (backward value alignment) ↔ alignment ∣ value := by
  constructor
  · intro same
    obtain ⟨⟨divides, below⟩, _⟩ := backward_isGreatest power value
    have exact : backward value alignment = value := Nat.le_antisymm below (le_of_forward? same)
    exact exact ▸ divides
  · intro divides
    rw [backward_of_dvd power divides]
    exact forward?_of_dvd power word divides small

structure Rounds (value alignment : Nat) : Prop where
  least : ∀ result, forward? value alignment = some result ↔
    IsLeast (multiplesFrom alignment value) result ∧ result < wordBound
  refused : forward? value alignment = none ↔
    ∃ result, IsLeast (multiplesFrom alignment value) result ∧ wordBound ≤ result
  greatest : IsGreatest (multiplesTo alignment value) (backward value alignment)
  below : backward value alignment ≤ value
  above : ∀ result, forward? value alignment = some result → value ≤ result
  forward_idempotent : ∀ result, forward? value alignment = some result → forward? result alignment = some result
  backward_idempotent : backward (backward value alignment) alignment = backward value alignment
  forward_monotone : ∀ larger bound, value ≤ larger → forward? larger alignment = some bound →
    ∃ result, forward? value alignment = some result ∧ result ≤ bound
  backward_monotone : ∀ larger, value ≤ larger → backward value alignment ≤ backward larger alignment
  coincide : forward? value alignment = some (backward value alignment) ↔ alignment ∣ value

private theorem rounds_of_word (power : alignment.isPowerOfTwo) (word : alignment < wordBound)
    (small : value < wordBound) :
    Rounds value alignment where
  least _ := forward?_eq_some_iff_isLeast power word
  refused := forward?_eq_none_iff_isLeast power word
  greatest := backward_isGreatest power value
  below := (backward_isGreatest power value).1.2
  above _ := le_of_forward?
  forward_idempotent _ rounded := by
    obtain ⟨⟨⟨divides, _⟩, _⟩, below⟩ := (forward?_eq_some_iff_isLeast power word).mp rounded
    exact forward?_of_dvd power word divides below
  backward_idempotent := backward_of_dvd power (backward_isGreatest power value).1.1
  forward_monotone _ _ := forward?_mono power word
  backward_monotone _ := backward_mono power
  coincide := forward?_eq_backward_iff power word small

/-- Rounding a word up finds the least multiple of the alignment from the value on, unless that is no word, and rounding
down the greatest one up to the value. The masks do the same on words. -/
theorem rounding_exact (value : UInt64) {alignment : UInt64} (power : alignment.toNat.isPowerOfTwo) :
    Rounds value.toNat alignment.toNat ∧
      (maskForward? value alignment).map UInt64.toNat = forward? value.toNat alignment.toNat ∧
      (maskBackward value alignment).toNat = backward value.toNat alignment.toNat :=
  ⟨rounds_of_word power alignment.toNat_lt value.toNat_lt, maskForward?_eq value alignment,
    toNat_maskBackward value alignment⟩

/-- The last multiple of eight that is a word is reached from seven below it, and nothing is from one above it. -/
theorem rounding_exact_last : (8 : UInt64).toNat.isPowerOfTwo ∧
    (maskForward? 0xfffffffffffffff1 8).map UInt64.toNat = some 0xfffffffffffffff8 ∧
    (maskForward? 0xfffffffffffffff9 8).map UInt64.toNat = none ∧
    (maskBackward 0xffffffffffffffff 8).toNat = 0xfffffffffffffff8 := by
  have power : (8 : UInt64).toNat.isPowerOfTwo := ⟨3, rfl⟩
  obtain ⟨reached, first, _⟩ := rounding_exact 0xfffffffffffffff1 power
  obtain ⟨beyond, second, _⟩ := rounding_exact 0xfffffffffffffff9 power
  obtain ⟨whole, _, third⟩ := rounding_exact 0xffffffffffffffff power
  refine ⟨power, ?_, ?_, ?_⟩
  · rw [first, reached.least]
    refine ⟨⟨⟨by decide, by decide⟩, ?_⟩, by decide⟩
    rintro other ⟨⟨k, rfl⟩, above⟩
    have lower : 0xfffffffffffffff1 ≤ 8 * k := above
    change 0xfffffffffffffff8 ≤ 8 * k
    omega
  · rw [second, beyond.refused]
    refine ⟨wordBound, ⟨⟨by decide, by decide⟩, ?_⟩, Nat.le_refl _⟩
    rintro other ⟨⟨k, rfl⟩, above⟩
    have lower : 0xfffffffffffffff9 ≤ 8 * k := above
    change 0x10000000000000000 ≤ 8 * k
    omega
  · rw [third]
    refine whole.greatest.unique ⟨⟨by decide, by decide⟩, ?_⟩
    rintro other ⟨⟨k, rfl⟩, below⟩
    have upper : 8 * k ≤ 0xffffffffffffffff := below
    change 8 * k ≤ 0xfffffffffffffff8
    omega

end Alignment
end Interop
