import Interop.Memory.Decoder
import Interop.Memory.Encoder
import Interop.Proofs.Memory.Writing

/-! What encoders and decoders can change, step by step and over whole sequences.
Main statements: `putItems_follows`, that puts leave alone what is behind the cursor, and `byteAt_takeItems`, that
takes change nothing but the destinations of copies. -/
namespace Interop
open Outcome

namespace View

/-- All that an access at a position may do to the store: nothing, or replace the bytes there. -/
def Touches (view : View) (position width : Nat) (before after : Store) : Prop :=
  after = before ∨ view.writable = true ∧
    ∃ bytes, bytes.length = width ∧ after = before.write (view.start + position) bytes

theorem copyFrom_cases (view source : View) (store : Store) :
    (view.writable = true ∧ source.readable = true ∧ source.size ≤ view.size ∧
      view.copyFrom source store = .ok () (store.copy source.start view.start source.size)) ∨
    ∃ reason, view.copyFrom source store = .error reason store := by
  cases copied : view.copyFrom source store with
  | error reason after =>
    obtain ⟨_, rfl⟩ := Store.guarded_eq_error_iff.mp copied
    exact .inr ⟨reason, rfl⟩
  | ok _ after =>
    obtain ⟨target, checked, rfl⟩ := Store.guarded_eq_ok_iff.mp copied
    obtain ⟨_, allowed, checked⟩ := bind_eq_ok.mp checked
    obtain ⟨_, readable, located⟩ := bind_eq_ok.mp checked
    obtain ⟨inside, rfl⟩ := locate_eq_ok_iff.mp located
    refine .inl ⟨requireWritable_eq_ok_iff.mp allowed, requireReadable_eq_ok_iff.mp readable, ?_, rfl⟩
    rwa [Nat.zero_add] at inside

theorem copyFrom_eq_ok {view source : View} (writable : view.writable = true) (readable : source.readable = true)
    (room : source.size ≤ view.size) (store : Store) :
    view.copyFrom source store = .ok () (store.copy source.start view.start source.size) := by
  have located : view.locate 0 source.size = .ok view.start :=
    locate_eq_ok_iff.mpr ⟨by rwa [Nat.zero_add], rfl⟩
  refine Store.guarded_eq_ok_iff.mpr ⟨view.start, ?_, rfl⟩
  simp only [requireWritable_eq_ok_iff.mpr writable, requireReadable_eq_ok_iff.mpr readable, ok_bind, located]

theorem slice_eq_ok {view : View} {offset size : Nat} (inside : offset + size ≤ view.size) :
    view.slice offset size = .ok { view with start := view.start + offset, size := size } :=
  slice_eq_ok_iff.mpr ⟨inside, rfl⟩

private theorem writeBytes_touches (view : View) (position : Nat) (bytes : List UInt8) (store : Store) :
    view.Touches position bytes.length store (left (view.writeBytes position bytes store)) := by
  obtain ⟨writable, _, written⟩ | ⟨_, _, refused⟩ := view.writeBytes_cases position bytes store
  · rw [written]
    exact .inr ⟨writable, bytes, rfl, rfl⟩
  · rw [refused]
    exact .inl rfl

end View

theorem Store.observe_bind {ε α β : Type} (look : Store → Except ε α) (next : α → EStateM ε Store β) (store : Store) :
    (observe look >>= next) store =
      match look store with
      | .ok result => next result store
      | .error reason => .error reason store := by
  simp only [bind, EStateM.bind, observe]
  cases look store <;> rfl

namespace Cursor

theorem advanceOf_eq {ε α : Type} (block : EStateM ε Cursor α) (cursor : Cursor) :
    advanceOf block cursor =
      relabel (fun result after => (after.position - cursor.position, result)) (block cursor) := by
  have got : ∀ cursor, (EStateM.get : EStateM ε Cursor Cursor) cursor = .ok cursor cursor := fun _ => rfl
  simp only [advanceOf, bind, EStateM.bind, got]
  cases block cursor <;> rfl

section Step

variable {α : Type} {refuse : (position width size : Nat) → MemoryError} {width : Nat}
  {action : View → Nat → EStateM MemoryError Store α} {cursor : Cursor}

theorem step_of_room (room : width ≤ cursor.remaining) :
    step refuse width action cursor =
      match action cursor.view cursor.position cursor.store with
      | .ok result store => .ok result ⟨store, cursor.view, cursor.position + width⟩
      | .error reason store => .error reason ⟨store, cursor.view, cursor.position⟩ := by
  have got : (EStateM.get : EStateM MemoryError Cursor Cursor) cursor = .ok cursor cursor := rfl
  simp only [step, bind, EStateM.bind, got, room, if_true, onStore]
  cases action cursor.view cursor.position cursor.store <;> rfl

theorem step_of_full (full : cursor.remaining < width) :
    step refuse width action cursor = .error (refuse cursor.position width cursor.view.size) cursor := by
  have got : (EStateM.get : EStateM MemoryError Cursor Cursor) cursor = .ok cursor cursor := rfl
  simp only [step, bind, EStateM.bind, got, Nat.not_le_of_lt full, if_false]
  rfl

theorem step_of_ok {result : α} {store : Store} (room : width ≤ cursor.remaining)
    (ok : action cursor.view cursor.position cursor.store = .ok result store) :
    step refuse width action cursor = .ok result ⟨store, cursor.view, cursor.position + width⟩ := by
  rw [step_of_room room, ok]

private theorem left_step (refuse : (position width size : Nat) → MemoryError) (width : Nat)
    (action : View → Nat → EStateM MemoryError Store α) (cursor : Cursor) :
    left (step refuse width action cursor) = cursor ∨
      width ≤ cursor.remaining ∧ ∃ position, cursor.position ≤ position ∧ position ≤ cursor.position + width ∧
        left (step refuse width action cursor) =
          ⟨left (action cursor.view cursor.position cursor.store), cursor.view, position⟩ := by
  by_cases room : width ≤ cursor.remaining
  · refine .inr ⟨room, ?_⟩
    rw [step_of_room room]
    cases action cursor.view cursor.position cursor.store with
    | ok result store => exact ⟨cursor.position + width, Nat.le_add_right _ _, Nat.le_refl _, rfl⟩
    | error reason store => exact ⟨cursor.position, Nat.le_refl _, Nat.le_add_right _ _, rfl⟩
  · rw [step_of_full (Nat.lt_of_not_le room)]
    exact .inl rfl

end Step

/-- Puts lead from one cursor to the other: what they have changed lies inside the view, from the position on, and is
nothing at all where the view is read-only. -/
structure Follows (before after : Cursor) : Prop where
  view : after.view = before.view
  forward : before.position ≤ after.position
  inside : before.position ≤ before.view.size → after.position ≤ before.view.size
  kept : ∀ address, address < before.view.start + before.position ∨ before.view.start + before.view.size ≤ address →
    after.store.byteAt address = before.store.byteAt address
  locked : before.view.writable = false → after.store = before.store

namespace Follows

theorem refl (cursor : Cursor) : cursor.Follows cursor :=
  ⟨rfl, Nat.le_refl _, id, fun _ _ => rfl, fun _ => rfl⟩

theorem trans {first second third : Cursor} (before : first.Follows second) (after : second.Follows third) :
    first.Follows third := by
  have view := before.view
  have forward := before.forward
  constructor
  · exact after.view.trans view
  · exact Nat.le_trans forward after.forward
  · intro start
    have within := after.inside
    rw [view] at within
    exact within (before.inside start)
  · intro address outside
    have kept := after.kept address
    rw [view] at kept
    rw [kept (by omega)]
    exact before.kept address outside
  · intro readOnly
    have locked := after.locked
    rw [view] at locked
    exact (locked readOnly).trans (before.locked readOnly)

end Follows

end Cursor

namespace Encoder
open Cursor

private theorem step_follows {width : Nat} {action : View → Nat → EStateM MemoryError Store Unit} {cursor : Cursor}
    (touches : cursor.view.Touches cursor.position width cursor.store
      (left (action cursor.view cursor.position cursor.store))) :
    cursor.Follows (left (step width action cursor)) := by
  unfold step
  obtain same | ⟨room, position, forward, bounded, moved⟩ := left_step .overflow width action cursor
  · rw [same]
    exact .refl cursor
  · unfold remaining at room
    rw [moved]
    obtain unchanged | ⟨writable, bytes, length, written⟩ := touches
    · rw [unchanged]
      exact ⟨rfl, forward, fun _ => by dsimp only; omega, fun _ _ => rfl, fun _ => rfl⟩
    · rw [written]
      refine ⟨rfl, forward, fun _ => by dsimp only; omega, ?_, ?_⟩
      · intro address outside
        exact Store.byteAt_write_of_outside _ _ _ (by omega)
      · intro readOnly
        cases writable.symm.trans readOnly

private theorem skip_follows (count : Nat) (cursor : Cursor) : cursor.Follows (left (skip count cursor)) :=
  @step_follows count (fun _ _ => pure ()) cursor (.inl rfl)

private theorem put_follows (type : ScalarType) (bits : type.Pattern) (order : ByteOrder) (cursor : Cursor) :
    cursor.Follows (left (put type bits order cursor)) := by
  refine @step_follows type.width (fun view start => view.set type start bits order) cursor ?_
  have touches := cursor.view.writeBytes_touches cursor.position (type.encode order bits) cursor.store
  rwa [ScalarType.length_encode, ← View.set_eq_writeBytes] at touches

private theorem putBytes_follows (bytes : List UInt8) (cursor : Cursor) :
    cursor.Follows (left (putBytes bytes cursor)) :=
  step_follows (cursor.view.writeBytes_touches cursor.position bytes cursor.store)

private theorem putView_follows (source : View) (cursor : Cursor) : cursor.Follows (left (putView source cursor)) := by
  apply step_follows
  rw [Store.observe_bind]
  cases cut : cursor.view.slice cursor.position source.size with
  | error reason => exact .inl rfl
  | ok target =>
    obtain ⟨inside, rfl⟩ := View.slice_eq_ok_iff.mp cut
    dsimp only
    obtain ⟨writable, _, _, copied⟩ | ⟨_, refused⟩ := View.copyFrom_cases
      { cursor.view with start := cursor.view.start + cursor.position, size := source.size } source cursor.store
    · rw [copied]
      exact .inr ⟨writable, _, Store.length_read _ _ _, rfl⟩
    · rw [refused]
      exact .inl rfl

theorem putItems_cons (item : Item) (rest : List Item) (cursor : Cursor) :
    putItems (item :: rest) cursor =
      match item.put cursor with
      | .ok report after => relabel (fun reports _ => report :: reports) (putItems rest after)
      | .error reason after => .error reason after := by
  simp only [putItems, bind, EStateM.bind]
  cases item.put cursor with
  | error reason after => rfl
  | ok report after => exact run_bind_pure (putItems rest) (report :: ·) after

theorem put_block (items : List Item) (cursor : Cursor) :
    (Item.block items).put cursor =
      relabel (fun reports after => .block (after.position - cursor.position) reports) (putItems items cursor) := by
  rw [Item.put, run_bind_pure, advanceOf_eq]
  cases putItems items cursor <;> rfl

mutual

theorem Item.put_follows : (item : Item) → (cursor : Cursor) → cursor.Follows (left (item.put cursor))
  | .scalar type bits order, cursor => by
    rw [Item.put, run_bind_pure, left_relabel]
    exact Encoder.put_follows type bits order cursor
  | .bytes bytes, cursor => by
    rw [Item.put, run_bind_pure, left_relabel]
    exact putBytes_follows bytes cursor
  | .skip count, cursor => by
    rw [Item.put, run_bind_pure, left_relabel]
    exact skip_follows count cursor
  | .view source, cursor => by
    rw [Item.put, run_bind_pure, left_relabel]
    exact putView_follows source cursor
  | .block items, cursor => by
    rw [put_block, left_relabel]
    exact putItems_follows items cursor

/-- What has been put stays, however much is put after it. -/
theorem putItems_follows : (items : List Item) → (cursor : Cursor) → cursor.Follows (left (putItems items cursor))
  | [], cursor => .refl cursor
  | item :: rest, cursor => by
    have first := item.put_follows cursor
    rw [putItems_cons]
    cases put : item.put cursor with
    | error reason after =>
      rw [put] at first
      exact first
    | ok report after =>
      rw [put] at first
      dsimp only
      rw [left_relabel]
      exact first.trans (putItems_follows rest after)

end

end Encoder

namespace Decoder
open Cursor

mutual

def Item.targets : Item → List View
  | .scalar .. | .bytes _ | .skip _ => []
  | .view target => [target]
  | .block items => targetsOf items

def targetsOf : List Item → List View
  | [] => []
  | item :: rest => item.targets ++ targetsOf rest

end

theorem takeItems_cons (item : Item) (rest : List Item) (cursor : Cursor) :
    takeItems (item :: rest) cursor =
      match item.take cursor with
      | .ok taken after => relabel (fun others _ => taken :: others) (takeItems rest after)
      | .error reason after => .error reason after := by
  simp only [takeItems, bind, EStateM.bind]
  cases item.take cursor with
  | error reason after => rfl
  | ok taken after => exact run_bind_pure (takeItems rest) (taken :: ·) after

theorem take_block (items : List Item) (cursor : Cursor) :
    (Item.block items).take cursor =
      relabel (fun taken after => .block (after.position - cursor.position) taken) (takeItems items cursor) := by
  rw [Item.take, run_bind_pure, advanceOf_eq]
  cases takeItems items cursor <;> rfl

private theorem store_step_observe {α : Type} (width : Nat) (look : View → Nat → Store → Except MemoryError α)
    (cursor : Cursor) :
    (left (step width (fun view start => Store.observe (look view start)) cursor)).store = cursor.store := by
  have looked : left (Store.observe (look cursor.view cursor.position) cursor.store) = cursor.store := by
    unfold Store.observe
    cases look cursor.view cursor.position cursor.store <;> rfl
  obtain same | ⟨_, _, _, _, moved⟩ := left_step MemoryError.underflow width
    (fun view start => Store.observe (look view start)) cursor
  · exact congrArg Cursor.store same
  · exact (congrArg Cursor.store moved).trans looked

private theorem byteAt_nextInto (target : View) (cursor : Cursor) {address : Nat}
    (outside : target.writable = true → ¬ target.Covers address) :
    (left (nextInto target cursor)).store.byteAt address = cursor.store.byteAt address := by
  obtain same | ⟨_, _, _, _, moved⟩ := left_step MemoryError.underflow target.size
    (fun view start => do
      let source ← Store.observe fun _ => view.slice start target.size
      target.copyFrom source) cursor
  · exact congrArg (·.store.byteAt address) same
  · refine (congrArg (·.store.byteAt address) moved).trans ?_
    dsimp only
    rw [Store.observe_bind]
    cases cursor.view.slice cursor.position target.size with
    | error reason => rfl
    | ok source =>
      dsimp only
      obtain ⟨writable, _, room, copied⟩ | ⟨_, refused⟩ := target.copyFrom_cases source cursor.store
      · have absent := outside writable
        unfold View.Covers at absent
        rw [copied]
        refine Store.byteAt_write_of_outside _ _ _ ?_
        rw [Store.length_read]
        omega
      · rw [refused]
        rfl

mutual

theorem Item.byteAt_take : (item : Item) → (cursor : Cursor) → {address : Nat} →
    (∀ target ∈ item.targets, target.writable = true → ¬ target.Covers address) →
    (left (item.take cursor)).store.byteAt address = cursor.store.byteAt address
  | .scalar type order, cursor, address, _ => by
    rw [Item.take, run_bind_pure, left_relabel, next,
      store_step_observe type.width fun view start => view.get type start order]
  | .bytes count, cursor, address, _ => by
    rw [Item.take, run_bind_pure, left_relabel, nextBytes,
      store_step_observe count fun view start => view.readBytes start count]
  | .skip count, cursor, address, _ => by
    rw [Item.take, run_bind_pure, left_relabel]
    exact congrArg (·.byteAt address) (store_step_observe count (fun _ _ _ => .ok ()) cursor)
  | .view target, cursor, address, outside => by
    rw [Item.take, run_bind_pure, left_relabel]
    exact byteAt_nextInto target cursor (outside target List.mem_cons_self)
  | .block items, cursor, address, outside => by
    rw [take_block, left_relabel]
    exact byteAt_takeItems items cursor outside

theorem byteAt_takeItems : (items : List Item) → (cursor : Cursor) → {address : Nat} →
    (∀ target ∈ targetsOf items, target.writable = true → ¬ target.Covers address) →
    (left (takeItems items cursor)).store.byteAt address = cursor.store.byteAt address
  | [], _, _, _ => rfl
  | item :: rest, cursor, address, outside => by
    have here : ∀ target ∈ item.targets, target.writable = true → ¬ target.Covers address :=
      fun target member => outside target (List.mem_append_left _ member)
    have there : ∀ target ∈ targetsOf rest, target.writable = true → ¬ target.Covers address :=
      fun target member => outside target (List.mem_append_right _ member)
    have first := item.byteAt_take cursor here
    rw [takeItems_cons]
    cases took : item.take cursor with
    | error reason after =>
      rw [took] at first
      exact first
    | ok taken after =>
      rw [took] at first
      dsimp only
      rw [left_relabel]
      exact (byteAt_takeItems rest after there).trans first

end

end Decoder
end Interop
