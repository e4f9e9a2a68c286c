import Interop.Memory.View
import Interop.Proofs.Outcome

/-! What an access through a view needs and what it does to the store.
Main statements: `locateWrite_eq_ok_iff` and `locateRead_eq_ok_iff`, and that a scalar access is one of its bytes. -/
namespace Interop
open Outcome

namespace Store

theorem read_congr {store other : Store} {start count : Nat}
    (same : ∀ address, start ≤ address → address < start + count →
      other.byteAt address = store.byteAt address) : other.read start count = store.read start count := by
  apply List.map_congr_left
  intro i member
  have bound := List.mem_range.mp member
  exact same (start + i) (by omega) (by omega)

theorem read_write_of_apart (store : Store) {target start count : Nat} {bytes : List UInt8}
    (apart : target + bytes.length ≤ start ∨ start + count ≤ target) :
    (store.write target bytes).read start count = store.read start count :=
  read_congr fun address _ _ => byteAt_write_of_outside store target bytes (by omega)

theorem read_add (store : Store) (start first rest : Nat) :
    store.read start (first + rest) = store.read start first ++ store.read (start + first) rest := by
  simp [Store.read, List.range_add, Nat.add_assoc]

theorem read_eq_append {store : Store} {start count : Nat} {first rest : List UInt8}
    (read : store.read start count = first ++ rest) :
    store.read start first.length = first ∧ store.read (start + first.length) rest.length = rest := by
  have length := congrArg List.length read
  rw [length_read, List.length_append] at length
  subst length
  rw [read_add] at read
  exact List.append_inj read (length_read _ _ _)

theorem read_write_of_le (store : Store) (start : Nat) {bytes : List UInt8} {count : Nat} (within : count ≤ bytes.length) :
    (store.write start bytes).read start count = bytes.take count := by
  have whole := (store.read_write start bytes).trans (List.take_append_drop count bytes).symm
  have first := (read_eq_append whole).1
  rwa [List.length_take, Nat.min_eq_left within] at first

theorem read_copy (store : Store) (source target count : Nat) :
    (store.copy source target count).read target count = store.read source count := by
  have written := store.read_write target (store.read source count)
  rwa [length_read] at written

theorem guarded_eq_ok_iff {ε α : Type} {check : Except ε α} {change : α → Store → Store}
    {store after : Store} :
    guarded check change store = .ok () after ↔ ∃ target, check = .ok target ∧ after = change target store := by
  unfold guarded
  cases check with
  | error reason => simp
  | ok target => simp [eq_comm]

theorem guarded_eq_error_iff {ε α : Type} {check : Except ε α} {change : α → Store → Store}
    {store after : Store} {reason : ε} :
    guarded check change store = .error reason after ↔ check = .error reason ∧ after = store := by
  unfold guarded
  cases check with
  | error reason => simp [eq_comm]
  | ok target => simp

end Store

namespace View

/-- The views that exist: views of bytes, and views derived from those. -/
inductive Obtained : View → Prop
  | heap (start size : Nat) (writable : Bool) : Obtained (.heap start size writable)
  | atAddress (start size : Nat) (writable : Bool) : Obtained (.atAddress start size writable)
  | slice {view part : View} {offset size : Nat} (whole : Obtained view)
      (cut : view.slice offset size = .ok part) : Obtained part
  | readOnly {view : View} (whole : Obtained view) : Obtained view.readOnly

theorem locate_eq_ok_iff {view : View} {offset width start : Nat} :
    view.locate offset width = .ok start ↔ offset + width ≤ view.size ∧ start = view.start + offset := by
  unfold locate
  split
  next inside => simp [inside, eq_comm]
  next outside => simp [outside]

theorem requireReadable_eq_ok_iff {view : View} : view.requireReadable = .ok () ↔ view.readable = true := by
  unfold requireReadable
  cases view.readable <;> simp

theorem requireWritable_eq_ok_iff {view : View} : view.requireWritable = .ok () ↔ view.writable = true := by
  unfold requireWritable
  cases view.writable <;> simp

theorem slice_eq_ok_iff {view part : View} {offset size : Nat} :
    view.slice offset size = .ok part ↔
      offset + size ≤ view.size ∧ part = { view with start := view.start + offset, size := size } := by
  unfold slice
  rw [bind_eq_ok]
  constructor
  · rintro ⟨start, located, cut⟩
    obtain ⟨inside, rfl⟩ := locate_eq_ok_iff.mp located
    cases cut
    exact ⟨inside, rfl⟩
  · rintro ⟨inside, rfl⟩
    exact ⟨_, locate_eq_ok_iff.mpr ⟨inside, rfl⟩, rfl⟩

theorem locateRead_eq_ok_iff {view : View} {offset width start : Nat} :
    view.locateRead offset width = .ok start ↔
      view.readable = true ∧ offset + width ≤ view.size ∧ start = view.start + offset := by
  unfold locateRead
  rw [bind_eq_ok]
  constructor
  · rintro ⟨⟨⟩, allowed, located⟩
    exact ⟨requireReadable_eq_ok_iff.mp allowed, locate_eq_ok_iff.mp located⟩
  · rintro ⟨allowed, located⟩
    exact ⟨(), requireReadable_eq_ok_iff.mpr allowed, locate_eq_ok_iff.mpr located⟩

theorem locateWrite_eq_ok_iff {view : View} {offset width start : Nat} :
    view.locateWrite offset width = .ok start ↔
      view.writable = true ∧ offset + width ≤ view.size ∧ start = view.start + offset := by
  unfold locateWrite
  rw [bind_eq_ok]
  constructor
  · rintro ⟨⟨⟩, allowed, located⟩
    exact ⟨requireWritable_eq_ok_iff.mp allowed, locate_eq_ok_iff.mp located⟩
  · rintro ⟨allowed, located⟩
    exact ⟨(), requireWritable_eq_ok_iff.mpr allowed, locate_eq_ok_iff.mpr located⟩

theorem locateWrite_eq_error {view : View} {offset width : Nat} {reason : MemoryError}
    (refused : view.locateWrite offset width = .error reason) :
    (view.writable = false ∧ reason = .notWritable) ∨
      (view.writable = true ∧ view.size < offset + width ∧
        reason = .outOfBounds offset width view.size) := by
  unfold locateWrite requireWritable locate at refused
  cases allowed : view.writable with
  | false =>
    rw [allowed] at refused
    cases refused
    exact .inl ⟨rfl, rfl⟩
  | true =>
    rw [allowed] at refused
    simp only [if_true, ok_bind] at refused
    split at refused
    next => cases refused
    next outside =>
      cases refused
      exact .inr ⟨rfl, Nat.lt_of_not_le outside, rfl⟩

theorem Obtained.readable {view : View} (obtained : view.Obtained) : view.readable = true := by
  induction obtained with
  | heap => rfl
  | atAddress => rfl
  | slice _ cut ih =>
    obtain ⟨_, rfl⟩ := slice_eq_ok_iff.mp cut
    exact ih
  | readOnly _ ih => exact ih

theorem set_eq_writeBytes (view : View) (type : ScalarType) (offset : Nat) (bits : type.Pattern)
    (order : ByteOrder) : view.set type offset bits order = view.writeBytes offset (type.encode order bits) := by
  unfold set writeBytes
  rw [ScalarType.length_encode]

theorem get_eq_readBytes (view : View) (type : ScalarType) (offset : Nat) (order : ByteOrder)
    (store : Store) :
    view.get type offset order store = type.decode order <$> view.readBytes offset type.width store := by
  unfold get readBytes
  cases view.locateRead offset type.width <;> rfl

theorem writeBytes_eq_ok {view : View} (writable : view.writable = true) {offset : Nat} {bytes : List UInt8}
    (inside : offset + bytes.length ≤ view.size) (store : Store) :
    view.writeBytes offset bytes store = .ok () (store.write (view.start + offset) bytes) :=
  Store.guarded_eq_ok_iff.mpr ⟨_, locateWrite_eq_ok_iff.mpr ⟨writable, inside, rfl⟩, rfl⟩

theorem writeBytes_cases (view : View) (offset : Nat) (bytes : List UInt8) (store : Store) :
    (view.writable = true ∧ offset + bytes.length ≤ view.size ∧
      view.writeBytes offset bytes store = .ok () (store.write (view.start + offset) bytes)) ∨
    ∃ reason, view.locateWrite offset bytes.length = .error reason ∧
      view.writeBytes offset bytes store = .error reason store := by
  cases located : view.locateWrite offset bytes.length with
  | error reason => exact .inr ⟨reason, rfl, Store.guarded_eq_error_iff.mpr ⟨located, rfl⟩⟩
  | ok start =>
    obtain ⟨allowed, inside, rfl⟩ := locateWrite_eq_ok_iff.mp located
    exact .inl ⟨allowed, inside, writeBytes_eq_ok allowed inside store⟩

theorem readBytes_eq_ok {view : View} (readable : view.readable = true) {offset count : Nat}
    (inside : offset + count ≤ view.size) (store : Store) :
    view.readBytes offset count store = .ok (store.read (view.start + offset) count) := by
  unfold readBytes
  rw [locateRead_eq_ok_iff.mpr ⟨readable, inside, rfl⟩]
  rfl

/-- A scalar is read back with the bits that were written, in the same byte order. -/
theorem get_of_set {view : View} (readable : view.readable = true) {type : ScalarType} {offset : Nat}
    {bits : type.Pattern} {order : ByteOrder} {store after : Store}
    (written : view.set type offset bits order store = .ok () after) : view.get type offset order after = .ok bits := by
  obtain ⟨start, located, rfl⟩ := Store.guarded_eq_ok_iff.mp written
  obtain ⟨_, inside, rfl⟩ := locateWrite_eq_ok_iff.mp located
  have read := store.read_write (view.start + offset) (type.encode order bits)
  rw [ScalarType.length_encode] at read
  rw [get_eq_readBytes, readBytes_eq_ok readable inside, read]
  exact congrArg Except.ok (ScalarType.decode_encode type order bits)

theorem length_of_readBytes {view : View} {offset count : Nat} {store : Store} {bytes : List UInt8}
    (read : view.readBytes offset count store = .ok bytes) : bytes.length = count := by
  obtain ⟨start, _, same⟩ := bind_eq_ok.mp read
  cases same
  exact Store.length_read store start count

theorem readBytes_congr {view : View} {offset count : Nat} {store other : Store}
    (same : other.read (view.start + offset) count = store.read (view.start + offset) count) :
    view.readBytes offset count other = view.readBytes offset count store := by
  unfold readBytes
  cases located : view.locateRead offset count with
  | error reason => rfl
  | ok start =>
    obtain ⟨_, _, rfl⟩ := locateRead_eq_ok_iff.mp located
    exact congrArg Except.ok same

end View
end Interop
