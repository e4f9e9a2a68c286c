import Interop.Memory.Elements
import Interop.Number.Alignment
import Interop.Proofs.Memory.Writing

/-! Arrays of scalars against the views that they lie in.
Main statement: `offsets_agree`. An array looks at the index before it looks at the permission, so there is one case
where it does not report what its view reports: `set_readOnly_beyond`. -/
namespace Interop
open Outcome

private theorem Outcome.mapM_of_forall {ε α β : Type} {each : α → Except ε β} {result : α → β} {values : List α}
    (all : ∀ value ∈ values, each value = .ok (result value)) : values.mapM each = .ok (values.map result) := by
  induction values with
  | nil => rfl
  | cons value values ih =>
    obtain ⟨here, others⟩ := List.forall_mem_cons.mp all
    rw [List.mapM_cons, here, ih others]
    rfl

namespace View

variable {view : View} {offset width : Nat}

private theorem locateRead_of_outside (readable : view.readable = true) (outside : view.size < offset + width) :
    view.locateRead offset width = .error (.outOfBounds offset width view.size) := by
  rw [locateRead, requireReadable_eq_ok_iff.mpr readable, ok_bind]
  exact if_neg (Nat.not_le_of_lt outside)

private theorem locateWrite_of_outside (writable : view.writable = true) (outside : view.size < offset + width) :
    view.locateWrite offset width = .error (.outOfBounds offset width view.size) := by
  rw [locateWrite, requireWritable_eq_ok_iff.mpr writable, ok_bind]
  exact if_neg (Nat.not_le_of_lt outside)

end View

namespace Elements

def offset (elements : Elements) (index : Nat) : Nat := index * elements.type.width

def reach (elements : Elements) : Nat := elements.offset elements.length

variable {elements : Elements} {index : Nat}

private theorem lt_length_iff :
    index < elements.length ↔ elements.offset index + elements.type.width ≤ elements.view.size := by
  rw [length, offset, ← Nat.succ_mul]
  exact Nat.le_div_iff_mul_le elements.type.width_pos

private theorem end_le_reach (below : index < elements.length) :
    elements.offset index + elements.type.width ≤ elements.reach := by
  rw [reach, offset, offset, ← Nat.succ_mul]
  exact Nat.mul_le_mul_right _ below

private theorem locate_of_lt (word : elements.offset index < wordBound) (below : index < elements.length) :
    elements.locate index = .ok (elements.offset index) := if_pos ⟨word, below⟩

private theorem locate_refused (refused : ¬ (elements.offset index < wordBound ∧ index < elements.length)) :
    elements.locate index = .error (.outOfBounds (min (elements.offset index) (wordBound - 1)) elements.type.width
      elements.view.size) := if_neg refused

private theorem locate_of_le (word : elements.offset index < wordBound) (beyond : elements.length ≤ index) :
    elements.locate index =
      .error (.outOfBounds (elements.offset index) elements.type.width elements.view.size) := by
  have refused := fun accepted : elements.offset index < wordBound ∧ index < elements.length =>
    Nat.not_lt_of_le beyond accepted.2
  rw [locate_refused refused, Nat.min_eq_left (by omega)]

private theorem locate_of_far (far : wordBound ≤ elements.offset index) :
    elements.locate index = .error (.outOfBounds (wordBound - 1) elements.type.width elements.view.size) := by
  have refused := fun accepted : elements.offset index < wordBound ∧ index < elements.length =>
    Nat.not_lt_of_le far accepted.1
  rw [locate_refused refused, Nat.min_eq_right (by omega)]

private theorem get_of_locate_error {reason : MemoryError} (refused : elements.locate index = .error reason)
    (store : Store) :
    elements.get index store = .error reason := by
  rw [get, refused, error_bind]

private theorem set_of_locate_error {reason : MemoryError} (refused : elements.locate index = .error reason)
    (bits : elements.type.Pattern) (store : Store) : elements.set index bits store = .error reason store := by
  rw [set, refused]
  rfl

private theorem get_eq (readable : elements.view.readable = true) (word : elements.offset index < wordBound)
    (store : Store) :
    elements.get index store = elements.view.get elements.type (elements.offset index) elements.order store := by
  by_cases below : index < elements.length
  · rw [get, locate_of_lt word below, ok_bind]
  · have outside := Nat.lt_of_not_le (mt lt_length_iff.mpr below)
    rw [get_of_locate_error (locate_of_le word (Nat.le_of_not_lt below)), View.get,
      View.locateRead_of_outside readable outside, error_bind]

private theorem set_eq (word : elements.offset index < wordBound)
    (seen : elements.view.writable = true ∨ index < elements.length) (bits : elements.type.Pattern) :
    elements.set index bits = elements.view.set elements.type (elements.offset index) bits elements.order := by
  by_cases below : index < elements.length
  · rw [set, locate_of_lt word below]
  -- Behind the elements both refuse the range, because the permission is there.
  · have outside := Nat.lt_of_not_le (mt lt_length_iff.mpr below)
    funext store
    rw [set_of_locate_error (locate_of_le word (Nat.le_of_not_lt below)), View.set,
      View.locateWrite_of_outside (seen.resolve_right below) outside]
    rfl

private theorem set_of_readOnly (word : elements.offset index < wordBound) (locked : elements.view.writable = false)
    (beyond : elements.length ≤ index) (bits : elements.type.Pattern) (store : Store) :
    elements.set index bits store =
      .error (.outOfBounds (elements.offset index) elements.type.width elements.view.size) store ∧
    elements.view.set elements.type (elements.offset index) bits elements.order store =
      .error .notWritable store := by
  refine ⟨set_of_locate_error (locate_of_le word beyond) bits store, ?_⟩
  have refused : elements.view.locateWrite (elements.offset index) elements.type.width = .error .notWritable := by
    simp [View.locateWrite, View.requireWritable, locked]
  rw [View.set, refused]
  rfl

theorem set_readOnly_beyond :
    (⟨.heap 32 4 false, .u32, .native⟩ : Elements).set 1 7 .initial = .error (.outOfBounds 4 4 4) .initial ∧
      (View.heap 32 4 false).set .u32 4 7 .native .initial = .error .notWritable .initial :=
  @set_of_readOnly ⟨.heap 32 4 false, .u32, .native⟩ 1 (by decide) rfl (by decide) 7 .initial

private theorem get_of_lt (readable : elements.view.readable = true) (word : elements.view.size < wordBound)
    (below : index < elements.length) (store : Store) :
    elements.get index store = .ok (elements.type.decode elements.order
      (store.read (elements.view.start + elements.offset index) elements.type.width)) := by
  have inside := lt_length_iff.mp below
  rw [get_eq readable (by omega), View.get_eq_readBytes, View.readBytes_eq_ok readable inside]
  rfl

private theorem locate_eq_ok {place : Nat} (located : elements.locate index = .ok place) :
    place = elements.offset index ∧ index < elements.length := by
  by_cases accepted : elements.offset index < wordBound ∧ index < elements.length
  · rw [locate_of_lt accepted.1 accepted.2] at located
    exact ⟨(Except.ok.inj located).symm, accepted.2⟩
  · rw [locate_refused accepted] at located
    cases located

private theorem get_congr {store other : Store} (same : ∀ address, elements.view.start ≤ address →
      address < elements.view.start + elements.reach → other.byteAt address = store.byteAt address) (index : Nat) :
    elements.get index other = elements.get index store := by
  -- An element is made of its own bytes, so the tail shows in none.
  unfold get
  cases located : elements.locate index with
  | error reason => rfl
  | ok place =>
    obtain ⟨rfl, below⟩ := locate_eq_ok located
    have inside := end_le_reach below
    have bytes : other.read (elements.view.start + elements.offset index) elements.type.width =
        store.read (elements.view.start + elements.offset index) elements.type.width :=
      Store.read_congr fun address above under => same address (by omega) (by omega)
    rw [ok_bind, ok_bind, View.get_eq_readBytes, View.get_eq_readBytes, View.readBytes_congr bytes]

private theorem byteAt_set_of_outside (index : Nat) (bits : elements.type.Pattern) (store : Store) {address : Nat}
    (outside : address < elements.view.start ∨ elements.view.start + elements.reach ≤ address) :
    (left (elements.set index bits store)).byteAt address = store.byteAt address := by
  cases located : elements.locate index with
  | error reason => rw [set_of_locate_error located, left]
  | ok place =>
    obtain ⟨rfl, below⟩ := locate_eq_ok located
    have inside := end_le_reach below
    rw [set, located]
    apply Store.byteAt_guarded
    intro target checked
    obtain ⟨_, _, rfl⟩ := View.locateWrite_eq_ok_iff.mp checked
    refine Store.byteAt_write_of_outside _ _ _ ?_
    rw [ScalarType.length_encode]
    omega

private theorem exists_toList (readable : elements.view.readable = true) (word : elements.view.size < wordBound)
    (store : Store) : ∃ values, elements.toList store = .ok values ∧ values.length = elements.length ∧
      ∀ index < elements.length, values[index]?.map .ok = some (elements.get index store) := by
  let value := fun index => elements.type.decode elements.order
    (store.read (elements.view.start + elements.offset index) elements.type.width)
  have read : ∀ index < elements.length, elements.get index store = .ok (value index) :=
    fun index below => get_of_lt readable word below store
  refine ⟨(List.range elements.length).map value, ?_, ?_, ?_⟩
  · exact mapM_of_forall fun index member => read index (List.mem_range.mp member)
  · rw [List.length_map, List.length_range]
  · intro index below
    rw [List.getElem?_map, List.getElem?_range below, read index below]
    rfl

/-- What an array of scalars shows and changes, in terms of the view that it lies in. -/
structure Agrees (elements : Elements) : Prop where
  get : ∀ index store, elements.offset index < wordBound →
    elements.get index store = elements.view.get elements.type (elements.offset index) elements.order store
  set : ∀ index bits, elements.offset index < wordBound →
    elements.view.writable = true ∨ index < elements.length →
    elements.set index bits = elements.view.set elements.type (elements.offset index) bits elements.order
  far : ∀ index store, wordBound ≤ elements.offset index →
    (∃ reason, elements.get index store = .error reason) ∧
      ∀ bits, ∃ reason, elements.set index bits store = .error reason store
  iter : elements.iter.length = elements.length ∧
    ∀ index < elements.length, elements.iter[index]? = some (elements.get index)
  toList : ∀ store, ∃ values, elements.toList store = .ok values ∧ values.length = elements.length ∧
    ∀ index < elements.length, values[index]?.map .ok = some (elements.get index store)
  unread : ∀ store other : Store, (∀ address, elements.view.start ≤ address →
      address < elements.view.start + elements.reach → other.byteAt address = store.byteAt address) →
    (∀ index, elements.get index other = elements.get index store) ∧ elements.toList other = elements.toList store
  unwritten : ∀ index bits store address,
    address < elements.view.start ∨ elements.view.start + elements.reach ≤ address →
    (left (elements.set index bits store)).byteAt address = store.byteAt address

/-- An array is read and written like its view at the offsets of its elements, up to the one case where both the index
and the permission are wrong. It gives out all of its elements, and does not touch the tail of the view. -/
theorem offsets_agree {elements : Elements} (obtained : elements.view.Obtained)
    (word : elements.view.size < wordBound) : elements.Agrees where
  get index store inside := get_eq obtained.readable inside store
  set index bits inside seen := set_eq inside seen bits
  far index store far := by
    have refused := locate_of_far far
    exact ⟨⟨_, get_of_locate_error refused store⟩, fun bits => ⟨_, set_of_locate_error refused bits store⟩⟩
  iter := by
    refine ⟨by rw [Elements.iter, List.length_map, List.length_range], ?_⟩
    intro index below
    rw [Elements.iter, List.getElem?_map, List.getElem?_range below, Option.map_some]
  toList store := exists_toList obtained.readable word store
  unread store other same := by
    have each := get_congr same
    refine ⟨each, ?_⟩
    rw [Elements.toList, Elements.toList, funext each]
  unwritten index bits store address outside := byteAt_set_of_outside index bits store outside

/-- Ten bytes are two elements of four and a tail, which an index behind the elements does not reach. -/
theorem offsets_agree_partial :
    let elements : Elements := ⟨.heap 32 10 true, .u32, .big⟩
    let store := Store.initial.write 32 [0, 0, 0, 1, 0, 0, 0, 2, 3, 4]
    elements.length = 2 ∧ elements.toList store = .ok [1, 2] ∧ elements.Agrees ∧
      elements.set 2 7 store = .error (.outOfBounds 8 4 10) store := by
  intro elements store
  have agrees := @offsets_agree elements (.heap 32 10 true) (by decide)
  have refused : elements.locate 2 = .error (.outOfBounds 8 4 10) := locate_of_le (by decide) (by decide)
  exact ⟨by decide, by decide, agrees, set_of_locate_error refused 7 store⟩

end Elements
end Interop
