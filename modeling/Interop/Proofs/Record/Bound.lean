import Interop.Proofs.Marshal.Execution
import Interop.Proofs.Record.Sized

/-! Instances that were wrapped, taken from an array or found in other instances, and what can fail on them.
Each way to come by an instance keeps `Seated`, and `bound_decided` says what follows for its fields. -/
namespace Interop
open Interop.Alignment Outcome

/-- The instances that there are, in storage that can be allocated. -/
inductive Instance.Bound : Instance → Prop
  | wrapped {type : StructType} {view : View} {struct : Instance} (computed : type.layout.Computed)
    (obtained : view.Obtained) (stored : view.size < bufferBound) (ok : type.wrap view = .ok struct) : Bound struct
  | element {type : StructType} {view : View} {array : StructArray} {index : Nat} {struct : Instance}
    (computed : type.layout.Computed) (obtained : view.Obtained) (stored : view.size < bufferBound)
    (wrapped : type.wrapArray view = .ok array) (ok : array.get index = .ok struct) : Bound struct
  | nested {outer struct : Instance} {name : String} (bound : Bound outer) (ok : outer.nested name = .ok struct) :
    Bound struct

/-- A view of the size of its struct, at a multiple of the alignment if its address is known. -/
structure Instance.Seated (struct : Instance) : Prop where
  computed : struct.type.layout.Computed
  obtained : struct.view.Obtained
  stored : struct.view.size < bufferBound
  size : struct.view.size = struct.type.size
  aligned : struct.view.native = true → struct.type.alignment ∣ struct.view.start

inductive Instance.SetRefused : Failure → Prop
  | typeMismatch (expected got : String) : SetRefused (.marshal (.typeMismatch expected got))
  | outOfRange (value : Int) (type : String) (width : Nat) : SetRefused (.marshal (.outOfRange value type width))
  | notWritable : SetRefused (.marshal (.memory .notWritable))

/-! ## Alignment -/

private theorem Address.dvd_ofNat {alignment : Nat} (natural : Natural alignment) (start : Nat) :
    alignment ∣ (Address.ofNat start).toNat ↔ alignment ∣ start := by
  -- Addresses are words, and every alignment of a type divides their number.
  obtain ⟨exponent, rfl⟩ := natural.power
  have divides : 2 ^ exponent ∣ 2 ^ 64 :=
    Nat.pow_dvd_pow 2 (Nat.le_of_lt ((Nat.pow_lt_pow_iff_right (by decide)).mp natural.word))
  rw [Address.toNat, Address.ofNat, UInt64.toNat_ofNat']
  exact (Nat.dvd_mod_iff divides)

theorem View.requireAlignedTo_eq_ok_iff {view : View} {alignment : Nat} (natural : Natural alignment) :
    view.requireAlignedTo alignment = .ok () ↔ (view.native = true → alignment ∣ view.start) := by
  rw [requireAlignedTo, checkAlignment, if_pos natural.power, ok_bind, address?]
  cases view.native with
  | false => simp
  | true =>
    rw [← Address.dvd_ofNat natural]
    simp only [if_true, forall_const, Address.requireAlignedTo, checkAlignment, ok_bind,
      Address.isAlignedTo, natural.power, true_and, decide_eq_true_eq, ← Nat.dvd_iff_mod_eq_zero]
    split <;> simp [*]

/-! ## Ways to come by an instance -/

theorem StructType.wrap_self_iff {struct : Instance} (computed : struct.type.layout.Computed) :
    struct.type.wrap struct.view = .ok struct ↔ struct.view.size = struct.type.size ∧
      (struct.view.native = true → struct.type.alignment ∣ struct.view.start) := by
  have natural : Natural struct.type.alignment := computed.alignment_natural
  rw [wrap_eq_ok_iff, View.requireAlignedTo_eq_ok_iff natural]
  simp

theorem StructType.wrapArray_eq_ok_iff {type : StructType} {view : View} {array : StructArray} :
    type.wrapArray view = .ok array ↔ view.requireAlignedTo type.alignment = .ok () ∧ array = ⟨type, view⟩ := by
  rw [wrapArray, bind_eq_ok]
  constructor
  · rintro ⟨⟨⟩, aligned, made⟩
    cases made
    exact ⟨aligned, rfl⟩
  · rintro ⟨aligned, rfl⟩
    exact ⟨(), aligned, rfl⟩

private theorem StructArray.get_eq_ok {array : StructArray} {index : Nat} {struct : Instance}
    (ok : array.get index = .ok struct) : ∃ part,
      array.view.slice (index * array.type.size) array.type.size = .ok part ∧ struct = ⟨array.type, part⟩ := by
  unfold StructArray.get at ok
  dsimp only at ok
  split at ok
  next => cases ok
  next =>
    obtain ⟨part, cut, made⟩ := bind_eq_ok.mp ok
    cases made
    exact ⟨part, cut, rfl⟩

namespace Instance

private theorem nested_eq_ok {struct inner : Instance} {name : String} (ok : struct.nested name = .ok inner) :
    ∃ field layout part, struct.type.layout.field? name = some field ∧ field.type = .struct layout ∧
      struct.view.slice field.offset layout.size = .ok part ∧ inner = ⟨⟨layout, struct.type.narrowing⟩, part⟩ := by
  obtain ⟨field, required, ok⟩ := bind_eq_ok.mp ok
  have found := StructType.requireField_eq_ok_iff.mp (mapError_eq_ok.mp required)
  cases shape : field.type with
  | scalar own =>
    rw [shape] at ok
    cases ok
  | struct layout =>
    rw [shape] at ok
    obtain ⟨part, cut, made⟩ := bind_eq_ok.mp ok
    cases made
    exact ⟨field, layout, part, found, shape, mapError_eq_ok.mp cut, rfl⟩

namespace Seated

private theorem sized {struct : Instance} (seated : struct.Seated) : struct.Sized :=
  ⟨seated.computed, seated.obtained, seated.size⟩

private theorem wrap {struct : Instance} (seated : struct.Seated) : struct.type.wrap struct.view = .ok struct :=
  (StructType.wrap_self_iff seated.computed).mpr ⟨seated.size, seated.aligned⟩

private theorem slice {type : StructType} {view part : View} {offset : Nat} (computed : type.layout.Computed)
    (obtained : view.Obtained) (stored : view.size < bufferBound)
    (start : view.native = true → type.alignment ∣ view.start) (step : type.alignment ∣ offset)
    (cut : view.slice offset type.size = .ok part) : Seated ⟨type, part⟩ := by
  have whole := View.Obtained.slice obtained cut
  obtain ⟨inside, rfl⟩ := View.slice_eq_ok_iff.mp cut
  have within : type.size ≤ view.size := (Nat.le_add_left _ _).trans inside
  exact {
    computed := computed
    obtained := whole
    stored := within.trans_lt stored
    size := rfl
    aligned := fun native => Nat.dvd_add (start native) step }

end Seated

private theorem Bound.seated {struct : Instance} (bound : struct.Bound) : struct.Seated := by
  induction bound with
  | wrapped computed obtained stored ok =>
    obtain ⟨size, aligned, rfl⟩ := StructType.wrap_eq_ok_iff.mp ok
    exact ⟨computed, obtained, stored, size, (View.requireAlignedTo_eq_ok_iff computed.alignment_natural).mp aligned⟩
  | element computed obtained stored wrapped ok =>
    obtain ⟨aligned, rfl⟩ := StructType.wrapArray_eq_ok_iff.mp wrapped
    obtain ⟨part, cut, rfl⟩ := StructArray.get_eq_ok ok
    have start := (View.requireAlignedTo_eq_ok_iff computed.alignment_natural).mp aligned
    exact Seated.slice computed obtained stored start (Nat.dvd_mul_left_of_dvd computed.alignment_dvd_size _) cut
  | nested _ ok seated =>
    obtain ⟨field, layout, part, found, shape, cut, rfl⟩ := nested_eq_ok ok
    -- Its alignment divides the offset and the alignment of the struct around it, hence its address.
    have keeps := seated.computed.keeps (StructLayout.of_field? found).1
    have computed := keeps.computed
    have step := keeps.aligned
    have coarser := keeps.coarser
    simp only [shape, StructLayout.abiOf, AbiType.alignment_struct] at computed step coarser
    exact Seated.slice computed seated.obtained seated.stored
      (fun native => Nat.dvd_trans coarser (seated.aligned native)) step cut

/-! ## Fields -/

section Field

variable {struct : Instance} (seated : struct.Seated) {field : LayoutField}
  (member : field ∈ struct.type.layout.fields)
include seated member

private theorem Seated.field_eq : struct.field field.name = .ok (struct.part field) := by
  have sized := seated.sized
  rw [Instance.field, sized.requireField member, mapError_ok, ok_bind, sized.slice_part member, mapError_ok]

private theorem Seated.get_eq (store : Store) :
    ∃ value, value.kind = field.type.kind ∧ struct.get field.name store = .ok value ∧
    (struct.type.abiOf field).executeLift struct.view field.offset store = .ok (.ok value) := by
  have inside := seated.sized.inside member
  have stored := seated.stored
  obtain ⟨value, read⟩ := (struct.type.abiOf field).valueOfBytes_eq_ok
    (store.read (struct.view.start + field.offset) (struct.type.abiOf field).width)
  have lifted := AbiType.lift_eq_ok seated.obtained.readable inside read
  have short : (struct.type.abiOf field).width < bufferBound := by omega
  refine ⟨value, AbiType.kind_of_valueOfBytes read, ?_, ?_⟩
  · exact get_eq_ok (seated.computed.field?_of_mem member) seated.obtained.readable inside read
  · rw [AbiType.executeLift_of_lt short, lifted]

private theorem Seated.set_refused {value : Value} {store after : Store} {failure : Failure}
    (refused : struct.set field.name value store = .error failure after) : after = store ∧ SetRefused failure := by
  have inside := seated.sized.inside member
  rw [seated.sized.set_eq_lower member] at refused
  rcases (struct.type.abiOf field).lower_cases struct.type.narrowing struct.view field.offset value store with
    ⟨_, _, _, _, _, _, written⟩ | ⟨error, failed, refuses⟩
  · simp only [EStateM.adaptExcept, written] at refused
    cases refused
  · simp only [EStateM.adaptExcept, failed] at refused
    cases refused
    refine ⟨rfl, ?_⟩
    cases refuses with
    | conversion unconvertible =>
      cases unconvertible with
      | mismatch => exact .typeMismatch _ _
      | range => exact .outOfRange _ _ _
    | permission => exact .notWritable
    | bounds _ _ beyond => omega

end Field

private theorem requireField_unknown {struct : Instance} {name : String}
    (unknown : ∀ field ∈ struct.type.layout.fields, field.name ≠ name) :
    struct.type.requireField name = .error (.unknownField struct.type.name name) := by
  have absent : struct.type.layout.field? name = none := by
    rw [StructLayout.field?, List.find?_eq_none]
    intro field member same
    exact unknown field member (beq_iff_eq.mp same)
  rw [StructType.requireField, absent]

/-- On a bound instance every field can be cut out and read, and a value is only refused for what it is or for a view
that may not be written. A struct in it lies on a view that its own type would wrap. Other names are unknown, and
asking for them changes nothing. -/
theorem bound_decided {struct : Instance} (bound : struct.Bound) (store : Store) :
    (∀ field ∈ struct.type.layout.fields,
      struct.field field.name = .ok (struct.part field) ∧
      (∃ value, value.kind = field.type.kind ∧ struct.get field.name store = .ok value ∧
        (struct.type.abiOf field).executeLift struct.view field.offset store = .ok (.ok value)) ∧
      (∀ value failure after, struct.set field.name value store = .error failure after →
        after = store ∧ SetRefused failure) ∧
      ∀ layout, field.type = .struct layout → ∃ inner, struct.nested field.name = .ok inner ∧
        inner.type = ⟨layout, struct.type.narrowing⟩ ∧ inner.view = struct.part field ∧
        inner.type.wrap inner.view = .ok inner ∧ inner.view.size = layout.size ∧
        (inner.view.native = true → layout.alignment ∣ inner.view.start)) ∧
    ∀ name, (∀ field ∈ struct.type.layout.fields, field.name ≠ name) →
      struct.field name = .error (.bind (.unknownField struct.type.name name)) ∧
      struct.get name store = .error (.bind (.unknownField struct.type.name name)) ∧
      struct.nested name = .error (.bind (.unknownField struct.type.name name)) ∧
      ∀ value, struct.set name value store = .error (.bind (.unknownField struct.type.name name)) store := by
  have seated := bound.seated
  constructor
  · intro field member
    refine ⟨seated.field_eq member, seated.get_eq member store, fun _ _ _ => seated.set_refused member, ?_⟩
    intro layout type
    have found := seated.sized.nested_eq member type
    have inner := (Bound.nested bound found).seated
    exact ⟨_, found, rfl, rfl, inner.wrap, inner.size, inner.aligned⟩
  · intro name unknown
    have absent := requireField_unknown unknown
    refine ⟨?_, ?_, ?_, ?_⟩
    · rw [Instance.field, absent]
      rfl
    · rw [Instance.get, absent]
      rfl
    · rw [Instance.nested, absent]
      rfl
    · intro value
      rw [Instance.set, absent]
      rfl

/-- The struct in the third record of an array lies at an address of its own alignment, and its fields can be read. -/
theorem bound_decided_axis : ∃ array record axis,
    (StructType.ofLayout Specimen.record).wrapArray (.atAddress 4096 100 true) = .ok array ∧
      array.get 2 = .ok record ∧ record.nested "axis" = .ok axis ∧ axis.view.start = 4168 ∧ axis.Bound ∧
      axis.type.wrap axis.view = .ok axis ∧ ∃ value, axis.get "value" .initial = .ok value := by
  have wrapped : (StructType.ofLayout Specimen.record).wrapArray (.atAddress 4096 100 true) =
      .ok ⟨.ofLayout Specimen.record, .atAddress 4096 100 true⟩ := by cbv
  have taken : StructArray.get ⟨.ofLayout Specimen.record, .atAddress 4096 100 true⟩ 2 =
      .ok ⟨.ofLayout Specimen.record, .atAddress 4160 32 true⟩ := by cbv
  have record : Bound ⟨.ofLayout Specimen.record, .atAddress 4160 32 true⟩ :=
    .element StructLayout.record_computed (.atAddress 4096 100 true) (by decide) wrapped taken
  have member : ⟨"axis", 8, .struct Specimen.axis⟩ ∈ Specimen.record.fields := by simp [Specimen.record]
  obtain ⟨_, _, _, nested⟩ := (bound_decided record .initial).1 _ member
  obtain ⟨axis, found, type, _, again, _⟩ := nested Specimen.axis rfl
  have bound : axis.Bound := .nested record found
  have place : axis.view.start = 4168 := by
    cases found.symm.trans (show _ = Except.ok _ from rfl)
    rfl
  have inner : ⟨"value", 8, .scalar .f64⟩ ∈ axis.type.layout.fields := by simp [type, Specimen.axis]
  obtain ⟨_, ⟨value, _, read, _⟩, _⟩ := (bound_decided bound .initial).1 _ inner
  exact ⟨_, _, axis, wrapped, taken, found, place, bound, again, value, read⟩

end Instance
end Interop
