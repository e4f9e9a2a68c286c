import Interop.Proofs.Memory.Access
import Mathlib.Algebra.GroupWithZero.Nat

/-! Views that are derived from others by slicing and by giving up the permission to write.
Main statements: `narrows_of_derive`, and `slice_slice_eq_ok_iff` for slices of slices. -/
namespace Interop
open Outcome

namespace View

inductive Derivation where
  | slice (offset size : Nat)
  | readOnly
deriving DecidableEq

namespace Derivation

def apply (view : View) : Derivation → Except MemoryError View
  | .slice offset size => view.slice offset size
  | .readOnly => .ok view.readOnly

def offset : Derivation → Nat
  | .slice offset _ => offset
  | .readOnly => 0

end Derivation

def derive (root : View) : List Derivation → Except MemoryError View
  | [] => .ok root
  | first :: rest => do
    let part ← first.apply root
    part.derive rest

def baseOf (chain : List Derivation) : Nat := (chain.map Derivation.offset).sum

structure Within (root : View) (base : Nat) (part : View) : Prop where
  start : part.start = root.start + base
  inside : base + part.size ≤ root.size
  readable : part.readable = root.readable
  native : part.native = root.native
  allowed : part.writable = true → root.writable = true

namespace Within

theorem refl (view : View) : view.Within 0 view :=
  ⟨rfl, by omega, rfl, rfl, id⟩

theorem trans {root middle part : View} {base offset : Nat} (outer : root.Within base middle)
    (inner : middle.Within offset part) : root.Within (base + offset) part := by
  have start := inner.start
  have inside := inner.inside
  have within := outer.inside
  constructor
  · rw [start, outer.start, Nat.add_assoc]
  · omega
  · exact inner.readable.trans outer.readable
  · exact inner.native.trans outer.native
  · intro writable
    exact outer.allowed (inner.allowed writable)

private theorem apply {view part : View} {derivation : Derivation} (applied : derivation.apply view = .ok part) :
    view.Within derivation.offset part := by
  cases derivation with
  | slice offset size =>
    obtain ⟨within, rfl⟩ := slice_eq_ok_iff.mp applied
    exact ⟨rfl, within, rfl, rfl, id⟩
  | readOnly =>
    cases applied
    exact ⟨rfl, by simp [Derivation.offset, readOnly], rfl, rfl, nofun⟩

private theorem derive {root part : View} {chain : List Derivation} (derived : root.derive chain = .ok part) :
    root.Within (baseOf chain) part := by
  induction chain generalizing root with
  | nil =>
    cases derived
    exact .refl part
  | cons first rest ih =>
    obtain ⟨middle, applied, derived⟩ := bind_eq_ok.mp derived
    have whole := (Within.apply applied).trans (ih derived)
    simpa [baseOf] using whole

section Access

variable {root part : View} {base offset : Nat} (narrower : root.Within base part)

include narrower

theorem locate {width : Nat} (fits : offset + width ≤ part.size) :
    part.locate offset width = root.locate (base + offset) width := by
  have inside := narrower.inside
  have here : part.locate offset width = .ok (part.start + offset) := locate_eq_ok_iff.mpr ⟨fits, rfl⟩
  have there : root.locate (base + offset) width = .ok (part.start + offset) := by
    refine locate_eq_ok_iff.mpr ⟨by omega, ?_⟩
    rw [narrower.start, Nat.add_assoc]
  rw [here, there]

private theorem locateRead {width : Nat} (fits : offset + width ≤ part.size) :
    part.locateRead offset width = root.locateRead (base + offset) width := by
  simp only [View.locateRead, requireReadable, narrower.readable, narrower.locate fits]

private theorem locateWrite (writable : part.writable = true) {width : Nat} (fits : offset + width ≤ part.size) :
    part.locateWrite offset width = root.locateWrite (base + offset) width := by
  simp only [View.locateWrite, requireWritable, writable, narrower.allowed writable, narrower.locate fits]

private theorem get (type : ScalarType) (order : ByteOrder) (store : Store) (fits : offset + type.width ≤ part.size) :
    part.get type offset order store = root.get type (base + offset) order store := by
  simp only [View.get, narrower.locateRead fits]

theorem readBytes {count : Nat} (store : Store) (fits : offset + count ≤ part.size) :
    part.readBytes offset count store = root.readBytes (base + offset) count store := by
  simp only [View.readBytes, narrower.locateRead fits]

private theorem set (writable : part.writable = true) (type : ScalarType) (bits : type.Pattern) (order : ByteOrder)
    (store : Store) (fits : offset + type.width ≤ part.size) :
    part.set type offset bits order store = root.set type (base + offset) bits order store := by
  simp only [View.set, narrower.locateWrite writable fits]

private theorem writeBytes (writable : part.writable = true) (bytes : List UInt8) (store : Store)
    (fits : offset + bytes.length ≤ part.size) :
    part.writeBytes offset bytes store = root.writeBytes (base + offset) bytes store := by
  simp only [View.writeBytes, narrower.locateWrite writable fits]

end Access

end Within

private theorem writable_of_derive {root part : View} {chain : List Derivation}
    (derived : root.derive chain = .ok part) :
    part.writable = true ↔ root.writable = true ∧ Derivation.readOnly ∉ chain := by
  induction chain generalizing root with
  | nil =>
    cases derived
    simp
  | cons first rest ih =>
    obtain ⟨middle, applied, derived⟩ := bind_eq_ok.mp derived
    rw [ih derived]
    cases first with
    | slice offset size =>
      obtain ⟨_, rfl⟩ := slice_eq_ok_iff.mp applied
      simp
    | readOnly =>
      cases applied
      simp [readOnly]

/-- A derived view shows a range of the bytes of its root, and every access to it is one to the root there. -/
structure Narrows (root : View) (chain : List Derivation) (part : View) : Prop where
  range : root.Within (baseOf chain) part
  writable : part.writable = true ↔ root.writable = true ∧ Derivation.readOnly ∉ chain
  get : ∀ (type : ScalarType) (offset : Nat) (order : ByteOrder) (store : Store), offset + type.width ≤ part.size →
    part.get type offset order store = root.get type (baseOf chain + offset) order store
  readBytes : ∀ (offset count : Nat) (store : Store), offset + count ≤ part.size →
    part.readBytes offset count store = root.readBytes (baseOf chain + offset) count store
  set : part.writable = true → ∀ (type : ScalarType) (offset : Nat) (bits : type.Pattern) (order : ByteOrder)
    (store : Store), offset + type.width ≤ part.size →
    part.set type offset bits order store = root.set type (baseOf chain + offset) bits order store
  writeBytes : part.writable = true → ∀ (offset : Nat) (bytes : List UInt8) (store : Store),
    offset + bytes.length ≤ part.size →
    part.writeBytes offset bytes store = root.writeBytes (baseOf chain + offset) bytes store

theorem narrows_of_derive {root part : View} {chain : List Derivation} (derived : root.derive chain = .ok part) :
    root.Narrows chain part := by
  have range := Within.derive derived
  constructor
  · exact range
  · exact writable_of_derive derived
  · intro type offset order store fits
    exact range.get type order store fits
  · intro offset count store fits
    exact range.readBytes store fits
  · intro writable type offset bits order store fits
    exact range.set writable type bits order store fits
  · intro writable offset bytes store fits
    exact range.writeBytes writable bytes store fits

/-- A slice of a slice is one slice, at the sum of the offsets. -/
theorem slice_slice_eq_ok_iff {view part : View} {first width second size : Nat} :
    (do let outer ← view.slice first width
        outer.slice second size) = .ok part ↔
      first + width ≤ view.size ∧ second + size ≤ width ∧ view.slice (first + second) size = .ok part := by
  rw [bind_eq_ok]
  constructor
  · intro ⟨outer, cut, inner⟩
    obtain ⟨within, rfl⟩ := slice_eq_ok_iff.mp cut
    obtain ⟨fits, rfl⟩ := slice_eq_ok_iff.mp inner
    refine ⟨within, fits, slice_eq_ok_iff.mpr ⟨?_, ?_⟩⟩
    · dsimp only at fits
      omega
    · simp only [Nat.add_assoc]
  · intro ⟨within, fits, cut⟩
    obtain ⟨_, rfl⟩ := slice_eq_ok_iff.mp cut
    refine ⟨_, slice_eq_ok_iff.mpr ⟨within, rfl⟩, slice_eq_ok_iff.mpr ⟨fits, ?_⟩⟩
    simp only [Nat.add_assoc]

theorem exists_slice_slice_iff {view : View} {first width second size : Nat} :
    (∃ part, (do let outer ← view.slice first width
                 outer.slice second size) = .ok part) ↔ first + width ≤ view.size ∧ second + size ≤ width := by
  constructor
  · intro ⟨part, cut⟩
    obtain ⟨within, fits, _⟩ := slice_slice_eq_ok_iff.mp cut
    exact ⟨within, fits⟩
  · intro ⟨within, fits⟩
    have inside : first + second + size ≤ view.size := by omega
    exact ⟨_, slice_slice_eq_ok_iff.mpr ⟨within, fits, slice_eq_ok_iff.mpr ⟨inside, rfl⟩⟩⟩

end View
end Interop
