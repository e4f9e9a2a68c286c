import Interop.Proofs.Memory.Steps

/-! Copies of whole ranges of bytes, which may overlap in either direction.
Main statement: `transfers_through_temporary`, for every way to copy between views, cursors and addresses. -/
namespace Interop
open Outcome

namespace Cursor

private theorem onStore_of_ok {ε α : Type} {action : EStateM ε Store α} {cursor : Cursor} {result : α} {store : Store}
    (ok : action cursor.store = .ok result store) : onStore action cursor = .ok result { cursor with store } := by
  rw [onStore, ok]

private theorem onStore_of_refused {ε α : Type} {action : EStateM ε Store α} {cursor : Cursor} {reason : ε}
    (refused : action cursor.store = .error reason cursor.store) : onStore action cursor = .error reason cursor := by
  rw [onStore, refused]

section Part

variable {refuse : (position width size : Nat) → MemoryError} {count : Nat} {copy : View → EStateM MemoryError Store Unit}
  {cursor : Cursor}

def window (cursor : Cursor) (count : Nat) : View :=
  { cursor.view with start := cursor.view.start + cursor.position, size := count }

private theorem step_slice_of_ok {store : Store} (fits : cursor.position + count ≤ cursor.view.size)
    (copied : copy (cursor.window count) cursor.store = .ok () store) :
    step refuse count (fun view start => do
        let part ← Store.observe fun _ => view.slice start count
        copy part) cursor =
      .ok () ⟨store, cursor.view, cursor.position + count⟩ := by
  have room : count ≤ cursor.remaining := Nat.le_sub_of_add_le' fits
  apply step_of_ok room
  rw [Store.observe_bind, View.slice_eq_ok fits]
  exact copied

private theorem step_slice_of_refused
    (refused : cursor.position + count ≤ cursor.view.size →
      ∃ reason, copy (cursor.window count) cursor.store = .error reason cursor.store) :
    ∃ reason, step refuse count (fun view start => do
        let part ← Store.observe fun _ => view.slice start count
        copy part) cursor =
      .error reason cursor := by
  by_cases room : count ≤ cursor.remaining
  -- Nothing remains to a cursor behind the end of its view, and a copy of no bytes still fails there, in the slice.
  · rw [step_of_room room, Store.observe_bind]
    cases cut : cursor.view.slice cursor.position count with
    | error reason => exact ⟨reason, rfl⟩
    | ok part =>
      obtain ⟨fits, same⟩ := View.slice_eq_ok_iff.mp cut
      obtain ⟨reason, failed⟩ := refused fits
      have there : part = cursor.window count := same
      refine ⟨reason, ?_⟩
      dsimp only
      rw [there, failed]
  · exact ⟨_, step_of_full (Nat.lt_of_not_le room)⟩

end Part

end Cursor

/-- A copy of a whole range: between two views, between a view and the next bytes of a cursor, and between a view and an
address that the caller vouches for. -/
inductive Transfer where
  | copyFrom (view source : View)
  | copyTo (view target : View)
  | putView (source : View)
  | nextInto (target : View)
  | copyFromAddress (view : View) (source : Nat)
  | copyToAddress (view : View) (target : Nat)

namespace Transfer

def perform : Transfer → EStateM MemoryError Cursor Unit
  | copyFrom view source => Cursor.onStore (view.copyFrom source)
  | copyTo view target => Cursor.onStore (view.copyTo target)
  | putView source => Encoder.putView source
  | nextInto target => Decoder.nextInto target
  | copyFromAddress view source => Cursor.onStore (view.copyFromAddress source)
  | copyToAddress view target => Cursor.onStore (view.copyToAddress target)

/-- How many bytes are copied: all of the source between views, and the whole view that the call names otherwise. -/
def extent : Transfer → Nat
  | copyFrom _ source | putView source => source.size
  | nextInto target => target.size
  | copyTo view _ | copyFromAddress view _ | copyToAddress view _ => view.size

def source : Transfer → Cursor → Nat
  | copyFrom _ source, _ | putView source, _ => source.start
  | nextInto _, cursor => cursor.view.start + cursor.position
  | copyTo view _, _ | copyToAddress view _, _ => view.start
  | copyFromAddress _ source, _ => source

def target : Transfer → Cursor → Nat
  | copyFrom view _, _ | copyFromAddress view _, _ => view.start
  | copyTo _ target, _ | nextInto target, _ => target.start
  | putView _, cursor => cursor.view.start + cursor.position
  | copyToAddress _ target, _ => target

def advance : Transfer → Nat
  | putView source => source.size
  | nextInto target => target.size
  | _ => 0

/-- The views have the permissions that the copy needs, and the range fits where it has to. -/
def Allowed : Transfer → Cursor → Prop
  | copyFrom view source, _ => view.writable = true ∧ source.readable = true ∧ source.size ≤ view.size
  | copyTo view target, _ => target.writable = true ∧ view.readable = true ∧ view.size ≤ target.size
  | putView source, cursor =>
    cursor.view.writable = true ∧ source.readable = true ∧ cursor.position + source.size ≤ cursor.view.size
  | nextInto target, cursor =>
    target.writable = true ∧ cursor.view.readable = true ∧ cursor.position + target.size ≤ cursor.view.size
  | copyFromAddress view _, _ => view.writable = true
  | copyToAddress view _, _ => view.readable = true

variable {transfer : Transfer} {cursor : Cursor}

def done (transfer : Transfer) (cursor : Cursor) : Cursor where
  store := cursor.store.copy (transfer.source cursor) (transfer.target cursor) transfer.extent
  view := cursor.view
  position := cursor.position + transfer.advance

private theorem perform_of_allowed (allowed : transfer.Allowed cursor) :
    transfer.perform cursor = .ok () (transfer.done cursor) := by
  cases transfer with
  | copyFrom view source =>
    obtain ⟨writable, readable, room⟩ := allowed
    exact Cursor.onStore_of_ok (View.copyFrom_eq_ok writable readable room cursor.store)
  | copyTo view target =>
    obtain ⟨writable, readable, room⟩ := allowed
    exact Cursor.onStore_of_ok (View.copyFrom_eq_ok writable readable room cursor.store)
  | putView source =>
    obtain ⟨writable, readable, fits⟩ := allowed
    exact Cursor.step_slice_of_ok fits
      (@View.copyFrom_eq_ok (cursor.window source.size) source writable readable (Nat.le_refl _) cursor.store)
  | nextInto target =>
    obtain ⟨writable, readable, fits⟩ := allowed
    exact Cursor.step_slice_of_ok fits
      (@View.copyFrom_eq_ok target (cursor.window target.size) writable readable (Nat.le_refl _) cursor.store)
  | copyFromAddress view source =>
    have writable := View.requireWritable_eq_ok_iff.mpr allowed
    exact Cursor.onStore_of_ok (Store.guarded_eq_ok_iff.mpr ⟨(), writable, rfl⟩)
  | copyToAddress view target =>
    have readable := View.requireReadable_eq_ok_iff.mpr allowed
    exact Cursor.onStore_of_ok (Store.guarded_eq_ok_iff.mpr ⟨(), readable, rfl⟩)

private theorem allowed_or_refused (transfer : Transfer) (cursor : Cursor) :
    transfer.Allowed cursor ∨ ∃ reason, transfer.perform cursor = .error reason cursor := by
  cases transfer with
  | copyFrom view source =>
    obtain ⟨writable, readable, room, _⟩ | ⟨reason, refused⟩ := view.copyFrom_cases source cursor.store
    · exact .inl ⟨writable, readable, room⟩
    · exact .inr ⟨reason, Cursor.onStore_of_refused refused⟩
  | copyTo view target =>
    obtain ⟨writable, readable, room, _⟩ | ⟨reason, refused⟩ := target.copyFrom_cases view cursor.store
    · exact .inl ⟨writable, readable, room⟩
    · exact .inr ⟨reason, Cursor.onStore_of_refused refused⟩
  | putView source =>
    obtain ⟨writable, readable, _⟩ | ⟨reason, refused⟩ :=
      (cursor.window source.size).copyFrom_cases source cursor.store
    · by_cases fits : cursor.position + source.size ≤ cursor.view.size
      · exact .inl ⟨writable, readable, fits⟩
      · exact .inr (Cursor.step_slice_of_refused fun inside => absurd inside fits)
    · exact .inr (Cursor.step_slice_of_refused fun _ => ⟨reason, refused⟩)
  | nextInto target =>
    obtain ⟨writable, readable, _⟩ | ⟨reason, refused⟩ :=
      target.copyFrom_cases (cursor.window target.size) cursor.store
    · by_cases fits : cursor.position + target.size ≤ cursor.view.size
      · exact .inl ⟨writable, readable, fits⟩
      · exact .inr (Cursor.step_slice_of_refused fun inside => absurd inside fits)
    · exact .inr (Cursor.step_slice_of_refused fun _ => ⟨reason, refused⟩)
  | copyFromAddress view source =>
    cases checked : view.requireWritable with
    | ok => exact .inl (View.requireWritable_eq_ok_iff.mp checked)
    | error reason =>
      exact .inr ⟨reason, Cursor.onStore_of_refused (Store.guarded_eq_error_iff.mpr ⟨checked, rfl⟩)⟩
  | copyToAddress view target =>
    cases checked : view.requireReadable with
    | ok => exact .inl (View.requireReadable_eq_ok_iff.mp checked)
    | error reason =>
      exact .inr ⟨reason, Cursor.onStore_of_refused (Store.guarded_eq_error_iff.mpr ⟨checked, rfl⟩)⟩

private theorem of_performed {after : Cursor} (performed : transfer.perform cursor = .ok () after) :
    transfer.Allowed cursor ∧ after = transfer.done cursor := by
  obtain allowed | ⟨reason, refused⟩ := transfer.allowed_or_refused cursor
  · rw [perform_of_allowed allowed] at performed
    cases performed
    exact ⟨allowed, rfl⟩
  · rw [refused] at performed
    cases performed

private theorem eq_of_refused {reason : MemoryError} {after : Cursor}
    (failed : transfer.perform cursor = .error reason after) : after = cursor := by
  obtain allowed | ⟨reason, refused⟩ := transfer.allowed_or_refused cursor
  · rw [perform_of_allowed allowed] at failed
    cases failed
  · rw [refused] at failed
    cases failed
    rfl

/-- A copy is carried out if it is allowed. Then the target holds what the source held before, and nothing else has
changed but the position of the cursor. A copy that is refused changes nothing. -/
structure ThroughTemporary (transfer : Transfer) (cursor : Cursor) : Prop where
  accepted : (∃ after, transfer.perform cursor = .ok () after) ↔ transfer.Allowed cursor
  copied : ∀ after, transfer.perform cursor = .ok () after →
    after.store.read (transfer.target cursor) transfer.extent =
      cursor.store.read (transfer.source cursor) transfer.extent
  kept : ∀ after, transfer.perform cursor = .ok () after → ∀ address,
    address < transfer.target cursor ∨ transfer.target cursor + transfer.extent ≤ address →
    after.store.byteAt address = cursor.store.byteAt address
  moved : ∀ after, transfer.perform cursor = .ok () after →
    after.view = cursor.view ∧ after.position = cursor.position + transfer.advance
  refused : ∀ reason after, transfer.perform cursor = .error reason after → after = cursor

end Transfer

/-- Every copy reads all of its source before it writes, so an overlap cannot be seen. -/
theorem transfers_through_temporary (transfer : Transfer) (cursor : Cursor) : transfer.ThroughTemporary cursor := by
  constructor
  · constructor
    · intro ⟨after, performed⟩
      exact (Transfer.of_performed performed).1
    · intro allowed
      exact ⟨_, Transfer.perform_of_allowed allowed⟩
  · intro after performed
    obtain ⟨_, rfl⟩ := Transfer.of_performed performed
    exact Store.read_copy ..
  · intro after performed address outside
    obtain ⟨_, rfl⟩ := Transfer.of_performed performed
    exact Store.byteAt_copy_of_outside _ outside
  · intro after performed
    obtain ⟨_, rfl⟩ := Transfer.of_performed performed
    exact ⟨rfl, rfl⟩
  · intro reason after failed
    exact Transfer.eq_of_refused failed

/-- The target begins one byte behind the source: a loop from the front would repeat the first byte. -/
example : (left ((Transfer.copyFrom (.heap 33 3 true) (.heap 32 3 true)).perform
    ⟨Store.initial.write 32 [1, 2, 3, 4], .heap 32 4 true, 0⟩)).store.read 32 4 = [1, 1, 2, 3] := by decide

end Interop
