import Interop.Memory.Elements
import Interop.Proofs.Memory.Derived
import Interop.Proofs.Memory.Steps

/-! Runs of operations on any views, and the bytes that they cannot reach.
Main statement: `derived_views_narrow`, with `byteAt_runAll` as its part about runs. -/
namespace Interop
open Outcome

namespace View

private theorem requireWritable_of_readOnly {view : View} (locked : view.writable = false) :
    view.requireWritable = .error .notWritable := by
  simp [requireWritable, locked]

private theorem writeBytes_of_readOnly {view : View} (locked : view.writable = false) (offset : Nat)
    (content : List UInt8) (store : Store) : view.writeBytes offset content store = .error .notWritable store := by
  simp [writeBytes, locateWrite, requireWritable_of_readOnly locked, Store.guarded]

private theorem Writing.run_of_readOnly (writing : Writing) {view : View} (locked : view.writable = false)
    (store : Store) :
    left (writing.run view store) = store := by
  have refused := requireWritable_of_readOnly locked
  induction writing generalizing view with
  | bytes offset content => rw [run, writeBytes_of_readOnly locked, left]
  | scalar type offset bits order => rw [run, set_eq_writeBytes, writeBytes_of_readOnly locked, left]
  | fill byte => simp [run, View.fill, refused, Store.guarded, left]
  | copy source => simp [run, copyFrom, refused, Store.guarded, left]
  | copyAddress source => simp [run, copyFromAddress, refused, Store.guarded, left]
  | part offset size writing ih =>
    rw [run]
    cases cut : view.slice offset size with
    | error reason => rfl
    | ok inner =>
      obtain ⟨_, rfl⟩ := slice_eq_ok_iff.mp cut
      exact ih locked (requireWritable_of_readOnly locked)

private theorem Writing.byteAt_run (writing : Writing) {view : View} {store : Store} {address : Nat}
    (absent : view.writable = true → ¬ view.Covers address) :
    (left (writing.run view store)).byteAt address = store.byteAt address := by
  cases allowed : view.writable with
  | false => rw [writing.run_of_readOnly allowed]
  | true =>
    apply writing.byteAt_run_of_outside
    have outside := absent allowed
    unfold Covers at outside
    omega

end View

/-- What can be done with views: alone, in pairs, as scalars in a row, and by the next step of a sequence. -/
inductive Operation where
  | get (view : View) (type : ScalarType) (offset : Nat) (order : ByteOrder)
  | read (view : View) (offset count : Nat)
  | write (view : View) (writing : View.Writing)
  | copy (source target : View)
  | copyToAddress (source : View) (target : Nat)
  | element (elements : Elements) (index : Nat) (bits : elements.type.Pattern)
  | put (view : View) (position : Nat) (item : Encoder.Item)
  | take (view : View) (position : Nat) (item : Decoder.Item)

namespace Operation

def perform (store : Store) : Operation → Store
  | .get view type offset order => left (Store.observe (view.get type offset order) store)
  | .read view offset count => left (Store.observe (view.readBytes offset count) store)
  | .write view writing => left (writing.run view store)
  | .copy source target => left (source.copyTo target store)
  | .copyToAddress source target => left (source.copyToAddress target store)
  | .element elements index bits => left (elements.set index bits store)
  | .put view position item => (left (item.put ⟨store, view, position⟩)).store
  | .take view position item => (left (item.take ⟨store, view, position⟩)).store

/-- The views that an operation may write to; a plain address is one that its caller vouches for. -/
def targets : Operation → List View
  | .get .. | .read .. => []
  | .write view _ | .put view _ _ => [view]
  | .copy _ target => [target]
  | .copyToAddress source target => [.atAddress target source.size true]
  | .element elements _ _ => [elements.view]
  | .take _ _ item => item.targets

def runAll (operations : List Operation) (store : Store) : Store := operations.foldl perform store

private theorem byteAt_perform (operation : Operation) (store : Store) {address : Nat}
    (absent : ∀ view ∈ operation.targets, view.writable = true → ¬ view.Covers address) :
    (perform store operation).byteAt address = store.byteAt address := by
  cases operation with
  | get view type offset order =>
    simp only [perform, Store.observe]
    cases view.get type offset order store <;> rfl
  | read view offset count =>
    simp only [perform, Store.observe]
    cases view.readBytes offset count store <;> rfl
  | write view writing => exact writing.byteAt_run (absent view List.mem_cons_self)
  | copy source target =>
    exact (View.Writing.copy source).byteAt_run (absent target List.mem_cons_self)
  | copyToAddress source target =>
    have outside := absent _ List.mem_cons_self rfl
    simp only [View.Covers, View.atAddress] at outside
    apply Store.byteAt_guarded
    intro _ _
    refine Store.byteAt_write_of_outside _ _ _ ?_
    rw [Store.length_read]
    omega
  | element elements index bits =>
    simp only [perform, Elements.set]
    cases elements.locate index with
    | error reason => rfl
    | ok offset =>
      exact (View.Writing.scalar elements.type offset bits elements.order).byteAt_run
        (absent elements.view List.mem_cons_self)
  | put view position item =>
    have follows := item.put_follows ⟨store, view, position⟩
    cases allowed : view.writable with
    | false => exact congrArg (·.byteAt address) (follows.locked allowed)
    | true =>
      have outside := absent view List.mem_cons_self allowed
      unfold View.Covers at outside
      apply follows.kept
      dsimp only
      omega
  | take view position item => exact item.byteAt_take _ absent

theorem byteAt_runAll (operations : List Operation) (store : Store) {address : Nat}
    (absent : ∀ view ∈ operations.flatMap targets, view.writable = true → ¬ view.Covers address) :
    (runAll operations store).byteAt address = store.byteAt address := by
  induction operations generalizing store with
  | nil => rfl
  | cons first rest ih =>
    have here : ∀ view ∈ first.targets, view.writable = true → ¬ view.Covers address :=
      fun view member => absent view (List.mem_append_left _ member)
    have there : ∀ view ∈ rest.flatMap targets, view.writable = true → ¬ view.Covers address :=
      fun view member => absent view (List.mem_append_right _ member)
    exact (ih (perform store first) there).trans (first.byteAt_perform store here)

end Operation

/-- A view that is derived from another one reaches no other bytes, permits no more and slices as one would expect;
and no run of operations on any views changes a byte that none of the writable ones shows. -/
theorem derived_views_narrow {root part : View} {chain : List View.Derivation}
    (derived : root.derive chain = .ok part) :
    root.Narrows chain part ∧
      (∀ (operations : List Operation) (store : Store) (address : Nat),
        (∀ view ∈ operations.flatMap Operation.targets, view.writable = true → ¬ view.Covers address) →
        (Operation.runAll operations store).byteAt address = store.byteAt address) ∧
      ∀ first width second size : Nat,
        let twice := do
          let outer ← part.slice first width
          outer.slice second size
        ((∃ inner, twice = .ok inner) ↔ first + width ≤ part.size ∧ second + size ≤ width) ∧
          ∀ inner, twice = .ok inner → part.slice (first + second) size = .ok inner := by
  refine ⟨View.narrows_of_derive derived, ?_, ?_⟩
  · intro operations store address absent
    exact Operation.byteAt_runAll operations store absent
  · intro first width second size
    refine ⟨View.exists_slice_slice_iff, ?_⟩
    intro inner cut
    exact (View.slice_slice_eq_ok_iff.mp cut).2.2

/-- Bytes four to seven of sixteen may be read through the derived view, and not be written. -/
theorem derived_views_narrow_readOnly :
    (View.heap 32 16 true).derive [.slice 2 8, .readOnly, .slice 2 4] = .ok (.heap 36 4 false) ∧
      (View.heap 32 16 true).Narrows [.slice 2 8, .readOnly, .slice 2 4] (.heap 36 4 false) ∧
      ∀ store, (Operation.runAll
        [.write (.heap 36 4 false) (.fill 1), .copy (.heap 36 4 false) (.heap 40 4 true)] store).byteAt 37 =
          store.byteAt 37 := by
  have derived : (View.heap 32 16 true).derive [.slice 2 8, .readOnly, .slice 2 4] = .ok (.heap 36 4 false) := rfl
  obtain ⟨narrows, kept, _⟩ := derived_views_narrow derived
  refine ⟨derived, narrows, ?_⟩
  intro store
  apply kept
  simp [Operation.targets, View.Covers, View.heap]

end Interop
