import Interop.Proofs.Memory.Access

/-! Everything that can be written through a view, and where the bytes go.
Main statement: `Writing.byteAt_run_of_outside`. -/
namespace Interop
open Outcome

theorem Store.byteAt_fill_of_outside (store : Store) {start count address : Nat} (byte : UInt8)
    (outside : address < start ∨ start + count ≤ address) :
    (store.fill start count byte).byteAt address = store.byteAt address := by
  simp only [fill]
  rw [if_neg (by omega)]

theorem Store.byteAt_copy_of_outside (store : Store) {source target count address : Nat}
    (outside : address < target ∨ target + count ≤ address) :
    (store.copy source target count).byteAt address = store.byteAt address := by
  refine byteAt_write_of_outside _ _ _ ?_
  rwa [length_read]

theorem Store.read_fill_of_le (store : Store) (start : Nat) {part count : Nat} (within : part ≤ count) (byte : UInt8) :
    (store.fill start count byte).read start part = List.replicate part byte := by
  refine List.eq_replicate_iff.mpr ⟨length_read _ _ _, ?_⟩
  intro read member
  obtain ⟨i, inside, rfl⟩ := List.mem_map.mp member
  have bound := List.mem_range.mp inside
  simp only [fill]
  rw [if_pos (by omega)]

theorem Store.byteAt_guarded {ε α : Type} {check : Except ε α} {change : α → Store → Store}
    {store : Store} {address : Nat}
    (unchanged : ∀ target, check = .ok target → (change target store).byteAt address = store.byteAt address) :
    (left (guarded check change store)).byteAt address = store.byteAt address := by
  cases checked : check with
  | error reason => rfl
  | ok target => exact unchanged target checked

namespace View

inductive Writing where
  | bytes (offset : Nat) (content : List UInt8)
  | scalar (type : ScalarType) (offset : Nat) (bits : type.Pattern) (order : ByteOrder)
  | fill (byte : UInt8)
  | copy (source : View)
  | copyAddress (source : Nat)
  | part (offset size : Nat) (writing : Writing)

def Writing.run (view : View) : Writing → EStateM MemoryError Store Unit
  | .bytes offset content => view.writeBytes offset content
  | .scalar type offset bits order => view.set type offset bits order
  | .fill byte => view.fill byte
  | .copy source => view.copyFrom source
  | .copyAddress source => view.copyFromAddress source
  | .part offset size writing =>
    match view.slice offset size with
    | .ok inner => writing.run inner
    | .error reason => throw reason

def Covers (view : View) (address : Nat) : Prop := view.start ≤ address ∧ address < view.start + view.size

def Apart (a b : View) : Prop := a.start + a.size ≤ b.start ∨ b.start + b.size ≤ a.start

theorem Apart.symm {a b : View} (apart : a.Apart b) : b.Apart a := Or.symm apart

private theorem byteAt_writeBytes_of_outside (view : View) (offset : Nat) (content : List UInt8) {store : Store}
    {address : Nat} (outside : address < view.start ∨ view.start + view.size ≤ address) :
    (left (view.writeBytes offset content store)).byteAt address = store.byteAt address := by
  apply Store.byteAt_guarded
  intro target located
  obtain ⟨_, inside, rfl⟩ := locateWrite_eq_ok_iff.mp located
  exact Store.byteAt_write_of_outside _ _ _ (by omega)

private theorem byteAt_copyFrom_of_outside (view source : View) {store : Store} {address : Nat}
    (outside : address < view.start ∨ view.start + view.size ≤ address) :
    (left (view.copyFrom source store)).byteAt address = store.byteAt address := by
  apply Store.byteAt_guarded
  intro target checked
  obtain ⟨_, _, checked⟩ := Outcome.bind_eq_ok.mp checked
  obtain ⟨_, _, located⟩ := Outcome.bind_eq_ok.mp checked
  obtain ⟨inside, rfl⟩ := locate_eq_ok_iff.mp located
  exact Store.byteAt_write_of_outside _ _ _ (by rw [Store.length_read]; omega)

/-- Writing through a view, or through any part of it, changes no byte outside the view. -/
theorem Writing.byteAt_run_of_outside (writing : Writing) (view : View) {store : Store} {address : Nat}
    (outside : address < view.start ∨ view.start + view.size ≤ address) :
    (left (writing.run view store)).byteAt address = store.byteAt address := by
  induction writing generalizing view with
  | bytes offset content => exact view.byteAt_writeBytes_of_outside offset content outside
  | scalar type offset bits order =>
    rw [run, set_eq_writeBytes]
    exact view.byteAt_writeBytes_of_outside offset _ outside
  | fill byte =>
    rw [run, View.fill]
    apply Store.byteAt_guarded
    intro _ _
    exact Store.byteAt_fill_of_outside _ _ outside
  | copy source => exact view.byteAt_copyFrom_of_outside source outside
  | copyAddress source =>
    rw [run, copyFromAddress]
    apply Store.byteAt_guarded
    intro _ _
    exact Store.byteAt_write_of_outside _ _ _ (by rw [Store.length_read]; exact outside)
  | part offset size writing ih =>
    rw [run]
    cases cut : view.slice offset size with
    | error reason => rfl
    | ok inner =>
      obtain ⟨inside, rfl⟩ := slice_eq_ok_iff.mp cut
      exact ih _ (by dsimp only; omega)

end View
end Interop
