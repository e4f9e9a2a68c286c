import Interop.Proofs.CType.Placement
import Mathlib.Data.List.Chain
import Mathlib.Data.List.Permutation

/-! The computed layout of a struct is the one that C prescribes.
Main statement: `layout_followsC`, about every declaration whose structs were themselves laid out from declarations. -/
namespace Interop
open Interop.Alignment StructSchema

/-- A layout that some declaration has, made of layouts that declarations have. -/
inductive StructLayout.Computed : StructLayout → Prop
  | intro (schema : StructSchema) (platform : Platform) (layout : StructLayout)
      (nested : ∀ field ∈ schema.fields, ∀ inner, field.type = .struct inner → inner.Computed)
      (computed : schema.layout platform = .ok layout) : StructLayout.Computed layout

def NativeType.Computed : NativeType → Prop
  | .scalar _ => True
  | .struct layout => layout.Computed

/-- A power of two that is no more than the widest scalar. -/
structure Alignment.Natural (alignment : Nat) : Prop where
  power : alignment.isPowerOfTwo
  bound : alignment ≤ 8

namespace Alignment.Natural

theorem one : Natural 1 := ⟨⟨0, rfl⟩, by decide⟩

theorem pos {alignment : Nat} (natural : Natural alignment) : 0 < alignment :=
  Nat.pos_of_isPowerOfTwo natural.power

theorem word {alignment : Nat} (natural : Natural alignment) : alignment < wordBound :=
  natural.bound.trans_lt (by decide)

end Alignment.Natural

theorem CScalar.width_natural (own : CScalar) (platform : Platform) :
    Alignment.Natural (own.width platform) := by
  cases own <;> cases platform <;> exact ⟨by decide, by decide⟩

namespace StructSchema.Placed

variable {platform : Platform} {progress last : Progress} {fields : List SchemaField}
  {placed : List LayoutField}

theorem alignment_isGreatest (steps : Placed platform progress fields placed last) :
    IsGreatest {a | a = progress.alignment ∨
      ∃ field ∈ placed, a = (AbiType.mk field.type platform).alignment} last.alignment := by
  induction steps with
  | nil progress => exact ⟨.inl rfl, by rintro a (rfl | ⟨_, member, _⟩); exacts [le_rfl, nomatch member]⟩
  | @cons progress field offset rest placed last _ _ _ _ ih =>
    obtain ⟨reached, upper⟩ := ih
    constructor
    · rcases reached with start | ⟨other, inside, same⟩
      · rcases le_total progress.alignment (AbiType.mk field.type platform).alignment with below | above
        · exact .inr ⟨_, List.mem_cons_self, start.trans (max_eq_right below)⟩
        · exact .inl (start.trans (max_eq_left above))
      · exact .inr ⟨other, List.mem_cons_of_mem _ inside, same⟩
    · have start := upper (.inl rfl)
      rintro a (rfl | ⟨other, member, rfl⟩)
      · exact (le_max_left _ _).trans start
      · rcases List.mem_cons.mp member with rfl | inside
        · exact (le_max_right _ _).trans start
        · exact upper (.inr ⟨other, inside, rfl⟩)

theorem alignment_natural (steps : Placed platform progress fields placed last)
    (start : Natural progress.alignment)
    (each : ∀ field ∈ placed, Natural (AbiType.mk field.type platform).alignment) :
    Natural last.alignment := by
  rcases steps.alignment_isGreatest.1 with same | ⟨field, member, same⟩
  · exact same ▸ start
  · exact same ▸ each field member

private theorem size_eq (steps : Placed platform progress fields placed last) :
    last.size = placed.getLast?.elim progress.size
      fun field => field.offset + (AbiType.mk field.type platform).width := by
  induction steps with
  | nil => rfl
  | @cons _ _ _ _ placed _ _ _ _ _ ih =>
    rw [ih, List.getLast?_cons]
    cases placed.getLast? <;> rfl

private theorem offset_isLeast (steps : Placed platform progress fields placed last)
    (each : ∀ field ∈ placed, Natural (AbiType.mk field.type platform).alignment) :
    (∀ first, placed.head? = some first →
      IsLeast (multiplesFrom (AbiType.mk first.type platform).alignment progress.size) first.offset) ∧
    placed.IsChain fun before field =>
      IsLeast (multiplesFrom (AbiType.mk field.type platform).alignment
        (before.offset + (AbiType.mk before.type platform).width)) field.offset := by
  induction steps with
  | nil => exact ⟨by simp, .nil⟩
  | cons _ rounded _ _ ih =>
    obtain ⟨following, chain⟩ := ih fun field inside => each field (List.mem_cons_of_mem _ inside)
    refine ⟨?_, ?_⟩
    · rintro first ⟨⟩
      exact isLeast_of_forward? (each _ List.mem_cons_self).power rounded
    · exact chain.cons following

end StructSchema.Placed

theorem StructLayout.Computed.alignment_natural {layout : StructLayout} (computed : layout.Computed) :
    Natural layout.alignment := by
  -- The induction is over the nesting: the fields' alignments are scalar widths or those of smaller types.
  induction computed with
  | intro schema platform layout nested computed ih =>
    obtain ⟨_, _, last, placed, _, same⟩ := layout_eq_ok_iff.mp computed
    rw [same]
    refine placed.alignment_natural .one fun field member => ?_
    obtain ⟨source, inside, _, type⟩ := placed.declared member
    cases shape : field.type with
    | scalar own => exact own.width_natural platform
    | struct inner => exact ih source ((sorted_perm schema).mem_iff.mp inside) inner (type.trans shape)

theorem NativeType.Computed.alignment_natural {type : NativeType} (computed : type.Computed)
    (platform : Platform) : Natural (AbiType.mk type platform).alignment := by
  cases type with
  | scalar own => exact own.width_natural platform
  | struct layout => exact StructLayout.Computed.alignment_natural computed

/-- What C says about the layout of a declared struct, in numbers without bound. -/
structure StructLayout.FollowsC (schema : StructSchema) (platform : Platform) (layout : StructLayout) :
    Prop where
  same_name : layout.name = schema.name
  same_platform : layout.platform = platform
  /-- The fields are the declared ones, in the order of the slots, which are counted from zero. -/
  fields : ∃ ordered : List SchemaField, ordered.Perm schema.fields ∧
    ordered.map (·.slot) = List.range ordered.length ∧
    layout.fields.map (fun field => (field.name, field.type)) =
      ordered.map fun field => (field.name, field.type)
  resolved : ∀ field ∈ layout.fields, field.type.resolve platform = .ok (layout.abiOf field)
  first : ∀ field, layout.fields.head? = some field → field.offset = 0
  next : layout.fields.IsChain fun before field =>
    IsLeast (multiplesFrom (layout.abiOf field).alignment
      (before.offset + (layout.abiOf before).width)) field.offset
  alignment : IsGreatest {a | a = 1 ∨ ∃ field ∈ layout.fields, a = (layout.abiOf field).alignment}
    layout.alignment
  power : layout.alignment.isPowerOfTwo
  /-- Trailing padding; without fields there is nothing to pad. -/
  size : IsLeast (multiplesFrom layout.alignment (layout.fields.getLast?.elim 0
    fun field => field.offset + (layout.abiOf field).width)) layout.size
  empty : layout.fields = [] → layout.size = 0

/-- A declaration that can be laid out, of scalars and computed structs, gets the layout of C. -/
theorem layout_followsC {schema : StructSchema} {platform : Platform} {layout : StructLayout}
    (nested : ∀ field ∈ schema.fields, field.type.Computed)
    (computed : schema.layout platform = .ok layout) : layout.FollowsC schema platform := by
  obtain ⟨slots, _, last, placed, rounded, same⟩ := layout_eq_ok_iff.mp computed
  have natural : ∀ field ∈ layout.fields, Natural (AbiType.mk field.type platform).alignment := by
    intro field member
    obtain ⟨source, inside, _, type⟩ := placed.declared member
    exact type ▸ (nested source ((sorted_perm schema).mem_iff.mp inside)).alignment_natural platform
  have power := placed.alignment_natural .one natural
  obtain ⟨start, chain⟩ := placed.offset_isLeast natural
  have least := isLeast_of_forward? power.power rounded
  rw [placed.size_eq] at least
  rw [same] at placed chain start least ⊢
  exact {
    same_name := rfl
    same_platform := rfl
    fields := ⟨schema.sorted, sorted_perm schema, slots, placed.same_fields⟩
    resolved := fun field member => (placed.embeds member).resolve
    first := fun field head => Nat.le_zero.mp ((start field head).2 ⟨Nat.dvd_zero _, Nat.le_refl _⟩)
    next := chain
    alignment := placed.alignment_isGreatest
    power := power.power
    size := least
    empty := fun none => by
      rw [show layout.fields = [] from none] at least
      exact Nat.le_zero.mp (least.2 ⟨Nat.dvd_zero _, Nat.le_refl _⟩) }

/-! ## A record with a struct in it -/

namespace Specimen

def axisSchema : StructSchema :=
  ((StructSchema.empty "axis").field "id" (.scalar .u16)).field "value" (.scalar .f64)

def axis : StructLayout :=
  ⟨"axis", 16, 8, .llp64, [⟨"id", 0, .scalar .u16⟩, ⟨"value", 8, .scalar .f64⟩]⟩

/-- Its fields are declared out of the order of their slots. -/
def recordSchema : StructSchema :=
  (((StructSchema.empty "record").fieldAt 2 "count" (.scalar .long)).fieldAt 0 "flag"
    (.scalar .u8)).fieldAt 1 "axis" (.struct axis)

def record : StructLayout :=
  ⟨"record", 32, 8, .llp64,
    [⟨"flag", 0, .scalar .u8⟩, ⟨"axis", 8, .struct axis⟩, ⟨"count", 24, .scalar .long⟩]⟩

theorem axis_computed : axis.Computed := by
  refine .intro axisSchema .llp64 axis ?_ (by cbv)
  intro field member inner shape
  simp only [axisSchema, StructSchema.field, StructSchema.fieldAt, StructSchema.empty, List.nil_append,
    List.cons_append, List.mem_cons, List.not_mem_nil, or_false] at member
  rcases member with rfl | rfl <;> cases shape

end Specimen

/-- The premises of `layout_followsC` hold of a record with a struct in it and padding on both sides of it. -/
theorem layout_followsC_record :
    Specimen.recordSchema.layout .llp64 = .ok Specimen.record ∧
      Specimen.record.FollowsC Specimen.recordSchema .llp64 := by
  have computed : Specimen.recordSchema.layout .llp64 = .ok Specimen.record := by cbv
  refine ⟨computed, layout_followsC ?_ computed⟩
  intro field member
  simp only [Specimen.recordSchema, StructSchema.fieldAt, StructSchema.empty, List.nil_append,
    List.cons_append, List.mem_cons, List.not_mem_nil, or_false] at member
  rcases member with rfl | rfl | rfl
  · trivial
  · trivial
  · exact Specimen.axis_computed

end Interop
