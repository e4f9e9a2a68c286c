import Interop.Proofs.Memory.Access
import Interop.Proofs.Marshal.NativeBytes

/-! Scalars that are written in one byte order and read in another, through a view or at an address.
Main statement: `scalars_round_trip`, for every type, every order and every view. -/
namespace Interop

private theorem Bytes.getElem?_ofNat (count value i : Nat) :
    (ofNat count value)[i]? = if i < count then some (UInt8.ofNat (value / 256 ^ i)) else none := by
  induction count generalizing value i with
  | zero => simp [ofNat]
  | succ count ih =>
    cases i with
    | zero => simp [ofNat]
    | succ i =>
      rw [ofNat, List.getElem?_cons_succ, ih, Nat.pow_succ', Nat.div_div_eq_div_mul]
      simp

/-- The explicit order that is not the given one; that of the host is the little one. -/
def ByteOrder.opposite : ByteOrder → ByteOrder
  | native | little => big
  | big => little

private theorem ByteOrder.arrange_opposite (order : ByteOrder) (bytes : List UInt8) :
    order.opposite.arrange (order.arrange bytes) = bytes.reverse := by
  cases order <;> simp [opposite, arrange]

namespace ScalarType

def byteOf {type : ScalarType} (bits : type.Pattern) (i : Nat) : BitVec 8 := bits.extractLsb' (8 * i) 8

/-- The same bytes from the other end, which is true of one pattern only. -/
def Reversed {type : ScalarType} (bits reversed : type.Pattern) : Prop :=
  ∀ i < type.width, byteOf reversed i = byteOf bits (type.width - 1 - i)

private theorem byteOf_eq {type : ScalarType} (bits : type.Pattern) (i : Nat) :
    byteOf bits i = BitVec.ofNat 8 (bits.toNat / 256 ^ i) := by
  apply BitVec.eq_of_toNat_eq
  rw [byteOf, BitVec.extractLsb'_toNat, BitVec.toNat_ofNat, Nat.shiftRight_eq_div_pow, Nat.pow_mul]

private theorem getElem?_bytes {type : ScalarType} (bits : type.Pattern) {i : Nat} (inside : i < type.width) :
    (Bytes.ofNat type.width bits.toNat)[i]? = some ⟨byteOf bits i⟩ := by
  rw [Bytes.getElem?_ofNat, if_pos inside, byteOf_eq]
  rfl

private theorem byteOf_ofNat {type : ScalarType} {bytes : List UInt8} (length : bytes.length = type.width) (i : Nat)
    (inside : i < type.width) :
    bytes[i]? = some ⟨byteOf (BitVec.ofNat _ (Bytes.toNat bytes) : type.Pattern) i⟩ := by
  have bound := Bytes.toNat_lt bytes
  rw [length, ← range_eq] at bound
  rw [← getElem?_bytes _ inside, BitVec.toNat_ofNat, Nat.mod_eq_of_lt bound, ← length, Bytes.ofNat_toNat]

private theorem reversed_decode_opposite (type : ScalarType) (order : ByteOrder) (bits : type.Pattern) :
    Reversed bits (type.decode order.opposite (type.encode order bits)) := by
  intro i inside
  have length : (Bytes.ofNat type.width bits.toNat).reverse.length = type.width := by
    rw [List.length_reverse, Bytes.length_ofNat]
  have there := byteOf_ofNat length i inside
  have here := getElem?_bytes bits (show type.width - 1 - i < type.width by omega)
  rw [List.getElem?_reverse (by rwa [Bytes.length_ofNat]), Bytes.length_ofNat, here] at there
  rw [decode, encode, ByteOrder.arrange_opposite]
  exact (congrArg UInt8.toBitVec (Option.some.inj there)).symm

end ScalarType

private theorem Address.toNat_add {start offset : Nat} (word : start + offset < wordBound) :
    ∃ target, (ofNat start).add offset = .ok target ∧ target.toNat = start + offset := by
  have first : (ofNat start).toNat = start := UInt64.toNat_ofNat_of_lt ((Nat.le_add_right _ _).trans_lt word)
  refine ⟨ofNat (start + offset), ?_, UInt64.toNat_ofNat_of_lt word⟩
  rw [add, first]
  exact if_pos word

private theorem Store.read_poke (store : Store) (address : Nat) (type : ScalarType) (order : ByteOrder)
    (bits : type.Pattern) :
    (store.poke address type order bits).read address type.width = type.encode order bits := by
  have read := store.read_write address (type.encode order bits)
  rwa [ScalarType.length_encode] at read

private theorem Store.peek_poke (store : Store) (address : Nat) (type : ScalarType) (order : ByteOrder)
    (bits : type.Pattern) :
    (store.poke address type order bits).peek address type order = bits := by
  rw [peek, read_poke, ScalarType.decode_encode]

namespace View

variable {view : View} {type : ScalarType} {offset : Nat} {order : ByteOrder} {bits : type.Pattern} {store after : Store}

private theorem get_eq_peek (readable : view.readable = true) (inside : offset + type.width ≤ view.size)
    (order : ByteOrder)
    (store : Store) : view.get type offset order store = .ok (store.peek (view.start + offset) type order) := by
  rw [get_eq_readBytes, readBytes_eq_ok readable inside]
  rfl

private theorem set_eq_poke (writable : view.writable = true) (inside : offset + type.width ≤ view.size)
    (bits : type.Pattern) (order : ByteOrder) (store : Store) :
    view.set type offset bits order store = .ok () (store.poke (view.start + offset) type order bits) := by
  rw [set_eq_writeBytes]
  apply writeBytes_eq_ok writable
  rwa [ScalarType.length_encode]

private theorem set_eq_ok_iff :
    view.set type offset bits order store = .ok () after ↔ view.writable = true ∧ offset + type.width ≤ view.size ∧
      after = store.poke (view.start + offset) type order bits := by
  constructor
  · intro written
    obtain ⟨_, located, rfl⟩ := Store.guarded_eq_ok_iff.mp written
    obtain ⟨writable, inside, rfl⟩ := locateWrite_eq_ok_iff.mp located
    exact ⟨writable, inside, rfl⟩
  · rintro ⟨writable, inside, rfl⟩
    exact set_eq_poke writable inside bits order store

/-- Without a check, a scalar is read and written at an address as it is at an offset in a view. -/
structure Reaches (view : View) (type : ScalarType) (offset : Nat) (order : ByteOrder) (bits : type.Pattern)
    (store : Store) (target : Address) : Prop where
  read : view.get type offset order store = .ok (store.peek target.toNat type order)
  written : view.writable = true →
    view.set type offset bits order store = .ok () (store.poke target.toNat type order bits)
  peek_after_set : ∀ after, view.set type offset bits order store = .ok () after →
    after.peek target.toNat type order = bits
  get_after_poke : view.get type offset order (store.poke target.toNat type order bits) = .ok bits

structure RoundTrips (view : View) (type : ScalarType) (offset : Nat) (order : ByteOrder) (bits : type.Pattern)
    (store : Store) : Prop where
  accepted : (∃ after, view.set type offset bits order store = .ok () after) ↔
    view.writable = true ∧ offset + type.width ≤ view.size
  same_order : ∀ after, view.set type offset bits order store = .ok () after →
    view.get type offset order after = .ok bits
  opposite_order : ∀ after, view.set type offset bits order store = .ok () after →
    ∃ reversed, view.get type offset order.opposite after = .ok reversed ∧ ScalarType.Reversed bits reversed
  confined : ∀ after, view.set type offset bits order store = .ok () after → ∀ address,
    address < view.start + offset ∨ view.start + offset + type.width ≤ address →
      after.byteAt address = store.byteAt address
  host_order : view.set type offset bits .native store = view.set type offset bits .little store ∧
    view.get type offset .native store = view.get type offset .little store
  unchecked : view.native = true → view.start + offset < wordBound → offset + type.width ≤ view.size →
    ∃ start target, view.address? = some start ∧ start.add offset = .ok target ∧
      view.Reaches type offset order bits store target

private theorem reaches_of_inside (readable : view.readable = true) (native : view.native = true)
    (word : view.start + offset < wordBound) (inside : offset + type.width ≤ view.size) (order : ByteOrder)
    (bits : type.Pattern) (store : Store) : ∃ start target, view.address? = some start ∧
      start.add offset = .ok target ∧ view.Reaches type offset order bits store target := by
  obtain ⟨target, added, there⟩ := Address.toNat_add word
  refine ⟨_, target, if_pos native, added, ?_⟩
  constructor
  · rw [there]
    exact get_eq_peek readable inside order store
  · intro writable
    rw [there]
    exact set_eq_poke writable inside bits order store
  · intro after written
    obtain ⟨_, _, rfl⟩ := set_eq_ok_iff.mp written
    rw [there, Store.peek_poke]
  · rw [there, get_eq_peek readable inside, Store.peek_poke]

/-- A scalar that was written is read back with the same bits in its own order and with its bytes from the other end in
the opposite one, and no byte but its own has changed. In native views the same can be done at its address. -/
theorem scalars_round_trip (obtained : view.Obtained) (type : ScalarType) (offset : Nat) (order : ByteOrder)
    (bits : type.Pattern) (store : Store) : view.RoundTrips type offset order bits store := by
  constructor
  · simp [set_eq_ok_iff]
  · intro after written
    exact get_of_set obtained.readable written
  · intro after written
    obtain ⟨_, inside, rfl⟩ := set_eq_ok_iff.mp written
    refine ⟨_, get_eq_peek obtained.readable inside _ _, ?_⟩
    rw [Store.peek, Store.read_poke]
    exact ScalarType.reversed_decode_opposite type order bits
  · intro after written address outside
    obtain ⟨_, _, rfl⟩ := set_eq_ok_iff.mp written
    apply Store.byteAt_write_of_outside
    rwa [ScalarType.length_encode]
  · exact ⟨rfl, rfl⟩
  · intro native word inside
    exact reaches_of_inside obtained.readable native word inside order bits store

/-- What is not a number keeps its payload, wherever in a view it lies, and the other order shows it from the end. -/
theorem scalars_round_trip_nan : (atAddress 4096 8 true).Obtained ∧
    ∃ after, (atAddress 4096 8 true).set .f32 3 0x7fa00001#32 .big .initial = .ok () after ∧
      (atAddress 4096 8 true).get .f32 3 .big after = .ok 0x7fa00001#32 ∧
      (atAddress 4096 8 true).get .f32 3 .little after = .ok 0x0100a07f#32 ∧
      after.peek 4099 .f32 .big = 0x7fa00001#32 := by
  have obtained : (atAddress 4096 8 true).Obtained := .atAddress 4096 8 true
  have trips := scalars_round_trip obtained .f32 3 .big 0x7fa00001#32 .initial
  obtain ⟨after, written⟩ := trips.accepted.mpr ⟨rfl, by decide⟩
  obtain ⟨reversed, read, backwards⟩ := trips.opposite_order after written
  obtain ⟨start, target, found, added, reaches⟩ := trips.unchecked rfl (by decide) (by decide)
  cases found
  cases added
  have shown : reversed = 0x0100a07f#32 := by
    cases read.symm.trans (get_eq_peek rfl (by decide) _ _)
    obtain ⟨_, _, rfl⟩ := set_eq_ok_iff.mp written
    rfl
  exact ⟨obtained, after, written, trips.same_order after written, shown ▸ read, reaches.peek_after_set after written⟩

end View
end Interop
