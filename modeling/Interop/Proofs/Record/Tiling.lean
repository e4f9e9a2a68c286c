import Interop.Proofs.Record.Bound
import Interop.Proofs.Scratch.Session

/-! Arrays of structs: their elements cover the memory one after the other, up to a remainder that is left alone.
Main statement: `tiles`, for every array of structs that have bytes. -/
namespace Interop
open Interop.Alignment Outcome

namespace StructArray

def element (array : StructArray) (index : Nat) : Instance :=
  ⟨array.type, { array.view with start := array.view.start + index * array.type.size, size := array.type.size }⟩

/-- The elements lie one after the other from the start of the memory, and each of them stands for itself. -/
structure Tiles (array : StructArray) : Prop where
  count : array.length = array.view.size / array.type.size
  get : ∀ index < array.length, array.get index = .ok (array.element index)
  wrap : ∀ index < array.length, array.type.wrap (array.element index).view = .ok (array.element index)
  beyond : ∀ index, array.length ≤ index →
    ∃ offset width size, array.get index = .error (.outOfBounds offset width size)
  iterates : array.elements.length = array.length ∧ ∀ index, array.elements[index]? = (array.get index).toOption
  others : ∀ index < array.length, ∀ name value store, ∀ other < array.length, other ≠ index →
    ∀ field, (array.element other).get field (left ((array.element index).set name value store)) =
      (array.element other).get field store
  remainder : ∀ index < array.length, ∀ name value store address,
    array.view.start + array.length * array.type.size ≤ address →
    (left ((array.element index).set name value store)).byteAt address = store.byteAt address

section Elements

variable {array : StructArray}

private theorem length_eq (filled : array.type.size ≠ 0) : array.length = array.view.size / array.type.size :=
  if_neg filled

private theorem length_mul_le (array : StructArray) : array.length * array.type.size ≤ array.view.size := by
  unfold length
  split
  next => simp
  next => exact Nat.div_mul_le_self _ _

private theorem element_before (array : StructArray) {index bound : Nat} (below : index < bound) :
    index * array.type.size + array.type.size ≤ bound * array.type.size := by
  rw [← Nat.succ_mul]
  exact Nat.mul_le_mul_right _ below

private theorem slice_element {index : Nat} (below : index < array.length) :
    array.view.slice (index * array.type.size) array.type.size = .ok (array.element index).view :=
  View.slice_eq_ok_iff.mpr ⟨(array.element_before below).trans array.length_mul_le, rfl⟩

private theorem get_of_lt (word : array.view.size < wordBound) {index : Nat} (below : index < array.length) :
    array.get index = .ok (array.element index) := by
  -- No index below the length is refused for its offset, as the offsets in a view are words.
  have inside := (array.element_before below).trans array.length_mul_le
  have accepted : ¬ (array.length ≤ index ∨ 2 ^ 64 ≤ index * array.type.size) := by
    unfold wordBound at word
    omega
  unfold StructArray.get
  dsimp only
  rw [if_neg accepted, slice_element below]
  rfl

private theorem get_of_le {index : Nat} (beyond : array.length ≤ index) :
    array.get index = .error (.outOfBounds (min (index * array.type.size) (wordBound - 1)) array.type.size
      (array.length * array.type.size)) :=
  if_pos (.inl beyond)

private theorem elements_eq (word : array.view.size < wordBound) :
    array.elements = (List.range array.length).map array.element := by
  unfold elements
  rw [← List.filterMap_eq_map]
  apply List.filterMap_congr
  intro index member
  rw [get_of_lt word (List.mem_range.mp member)]
  rfl

private theorem length_elements (word : array.view.size < wordBound) : array.elements.length = array.length := by
  rw [elements_eq word, List.length_map, List.length_range]

private theorem getElem?_elements (word : array.view.size < wordBound) (index : Nat) :
    array.elements[index]? = (array.get index).toOption := by
  rw [elements_eq word, List.getElem?_map]
  by_cases below : index < array.length
  · rw [get_of_lt word below, List.getElem?_range below]
    rfl
  · have beyond := Nat.le_of_not_lt below
    rw [get_of_le beyond, List.getElem?_eq_none (List.length_range.symm ▸ beyond)]
    rfl

private theorem element_apart (array : StructArray) {index other : Nat} (different : other ≠ index) :
    (array.element index).view.Apart (array.element other).view := by
  unfold View.Apart element
  dsimp only
  rcases Nat.lt_or_gt_of_ne different with below | above
  · have before := array.element_before below
    omega
  · have before := array.element_before above
    omega

private theorem element_sized (computed : array.type.layout.Computed) (obtained : array.view.Obtained) {index : Nat}
    (below : index < array.length) : (array.element index).Sized :=
  .of_slice computed obtained (slice_element below)

private theorem wrap_element (computed : array.type.layout.Computed)
    (aligned : array.view.native = true → array.type.alignment ∣ array.view.start) (index : Nat) :
    array.type.wrap (array.element index).view = .ok (array.element index) := by
  -- The struct's size is a multiple of its alignment, so every element begins at one.
  have step : array.type.alignment ∣ index * array.type.size :=
    Nat.dvd_mul_left_of_dvd computed.alignment_dvd_size index
  refine (StructType.wrap_self_iff computed).mpr ⟨rfl, ?_⟩
  intro native
  exact Nat.dvd_add (aligned native) step

private theorem get_set_of_ne (computed : array.type.layout.Computed) (obtained : array.view.Obtained)
    {index other : Nat}
    (below : other < array.length) (different : other ≠ index) (name : String) (value : Value) (store : Store)
    (field : String) : (array.element other).get field (left ((array.element index).set name value store)) =
      (array.element other).get field store := by
  have sized := element_sized computed obtained below
  refine sized.get_congr_bytes sized rfl ?_ field
  refine Store.read_congr fun address above under => ?_
  have apart := array.element_apart different
  unfold View.Apart at apart
  have within : address < (array.element other).view.start + (array.element other).view.size := under
  refine (array.element index).byteAt_set_of_outside name value ?_
  omega

private theorem byteAt_set_of_remainder {index : Nat} (below : index < array.length) (name : String) (value : Value)
    (store : Store) {address : Nat} (behind : array.view.start + array.length * array.type.size ≤ address) :
    (left ((array.element index).set name value store)).byteAt address = store.byteAt address := by
  refine (array.element index).byteAt_set_of_outside name value (.inr ?_)
  have before := array.element_before below
  unfold element
  dsimp only
  omega

end Elements

private theorem tiles_of_wrapArray {type : StructType} {view : View} {array : StructArray}
    (computed : type.layout.Computed) (filled : type.size ≠ 0) (obtained : view.Obtained) (word : view.size < wordBound)
    (wrapped : type.wrapArray view = .ok array) : array.Tiles := by
  obtain ⟨accepted, rfl⟩ := StructType.wrapArray_eq_ok_iff.mp wrapped
  have aligned := (View.requireAlignedTo_eq_ok_iff computed.alignment_natural).mp accepted
  exact {
    count := length_eq filled
    get := fun _ below => get_of_lt word below
    wrap := fun index _ => wrap_element computed aligned index
    beyond := fun _ beyond => ⟨_, _, _, get_of_le beyond⟩
    iterates := ⟨length_elements word, getElem?_elements word⟩
    others := fun _ _ name value store _ below different =>
      get_set_of_ne computed obtained below different name value store
    remainder := fun _ below name value store _ behind => byteAt_set_of_remainder below name value store behind }

end StructArray

namespace StructType

private theorem allocateArray_eq_ok {type : StructType} {count : Nat} {store after : Store} {owned : Allocation}
    (allocated : type.allocateArray count store = .ok owned after) :
    owned.size = type.size * count ∧ type.alignment ∣ owned.start := by
  unfold allocateArray at allocated
  cases product : mulWords? type.size count with
  | none =>
    rw [product] at allocated
    cases allocated
  | some size =>
    rw [product] at allocated
    obtain ⟨rfl, _⟩ := mulWords?_eq_some_iff.mp product
    exact Allocation.placed_of_new allocated

private theorem wrapArray_of_size {type : StructType} (computed : type.layout.Computed) (filled : type.size ≠ 0)
    {count : Nat} {memory : View} (size : memory.size = type.size * count) (aligned : type.alignment ∣ memory.start) :
    ∃ array, type.wrapArray memory = .ok array ∧ array.length = count := by
  have accepted : memory.requireAlignedTo type.alignment = .ok () :=
    (View.requireAlignedTo_eq_ok_iff computed.alignment_natural).mpr fun _ => aligned
  refine ⟨⟨type, memory⟩, wrapArray_eq_ok_iff.mpr ⟨accepted, rfl⟩, ?_⟩
  rw [StructArray.length_eq filled, size, Nat.mul_div_cancel_left count (Nat.pos_of_ne_zero filled)]

end StructType

namespace StructArray

/-- An array of structs that have bytes is as long as its memory allows. It gives out the instances at its indices, in
order, and nothing behind them, and what is set in one of them does not show in the others or in the remainder. Memory of
the size of a number of structs that begins at their alignment is an array of that length, wherever it lies, and such is
the memory that is allocated for them. -/
theorem tiles {type : StructType} (computed : type.layout.Computed) (filled : type.size ≠ 0) :
    (∀ view array, view.Obtained → view.size < wordBound → type.wrapArray view = .ok array → array.Tiles) ∧
    (∀ count (memory : View), memory.size = type.size * count → type.alignment ∣ memory.start →
      ∃ array, type.wrapArray memory = .ok array ∧ array.length = count) ∧
    ∀ count store owned after, type.allocateArray count store = .ok owned after →
      ∀ memory ∈ [owned.view, owned.viewMut],
        ∃ array, type.wrapArray memory = .ok array ∧ array.length = count := by
  refine ⟨?_, fun _ _ => StructType.wrapArray_of_size computed filled, ?_⟩
  · intro view array obtained word wrapped
    exact tiles_of_wrapArray computed filled obtained word wrapped
  · intro count store owned after allocated memory either
    obtain ⟨total, aligned⟩ := StructType.allocateArray_eq_ok allocated
    simp only [List.mem_cons, List.not_mem_nil, or_false] at either
    rcases either with rfl | rfl <;> exact StructType.wrapArray_of_size computed filled total aligned

/-- A hundred bytes hold three records and a remainder of four bytes; memory for five records holds five. -/
theorem tiles_record : (StructType.ofLayout Specimen.record).size = 32 ∧
    (∃ array, (StructType.ofLayout Specimen.record).wrapArray (.atAddress 4096 100 true) = .ok array ∧
      array.length = 3 ∧ array.Tiles) ∧
    ∃ owned after, (StructType.ofLayout Specimen.record).allocateArray 5 .initial = .ok owned after ∧
      ∃ array, (StructType.ofLayout Specimen.record).wrapArray owned.viewMut = .ok array ∧ array.length = 5 := by
  have filled : (StructType.ofLayout Specimen.record).size ≠ 0 := by decide
  have computed : (StructType.ofLayout Specimen.record).layout.Computed := StructLayout.record_computed
  obtain ⟨whole, _, fresh⟩ := tiles computed filled
  have wrapped : (StructType.ofLayout Specimen.record).wrapArray (.atAddress 4096 100 true) =
      .ok ⟨.ofLayout Specimen.record, .atAddress 4096 100 true⟩ := by cbv
  have tiled := whole _ _ (.atAddress 4096 100 true) (by decide) wrapped
  have allocated : ∃ owned after,
      (StructType.ofLayout Specimen.record).allocateArray 5 .initial = .ok owned after := ⟨_, _, rfl⟩
  obtain ⟨owned, after, allocated⟩ := allocated
  obtain ⟨array, covered, length⟩ := fresh 5 .initial owned after allocated owned.viewMut (by simp)
  exact ⟨rfl, ⟨_, wrapped, rfl, tiled⟩, owned, after, allocated, array, covered, length⟩

end StructArray

end Interop
