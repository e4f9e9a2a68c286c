import Interop.Proofs.CType.CLayout

/-! The scalars at the bottom of nested structs, and where they lie.
Main statement: `leaves_apart`, for every depth of nesting and for every element of an array of such structs. -/
namespace Interop
open Interop.Alignment StructSchema

structure Leaf where
  offset : Nat
  type : CScalar
deriving DecidableEq, Repr

namespace Leaf

def shift (leaf : Leaf) (distance : Nat) : Leaf := { leaf with offset := distance + leaf.offset }

def abi (leaf : Leaf) (platform : Platform) : AbiType := ⟨.scalar leaf.type, platform⟩

def Before (platform : Platform) (a b : Leaf) : Prop := a.offset + (a.abi platform).width ≤ b.offset

end Leaf

mutual

/-- The scalars in a type, in the order of the slots; an offset is the sum of those on the way to the scalar. -/
def NativeType.leaves : NativeType → List Leaf
  | .scalar type => [⟨0, type⟩]
  | .struct layout => layout.leaves

def LayoutField.leaves : LayoutField → List Leaf
  | ⟨_, offset, type⟩ => type.leaves.map (·.shift offset)

def StructLayout.leaves : StructLayout → List Leaf
  | ⟨_, _, _, _, fields⟩ => leavesOf fields

def leavesOf : List LayoutField → List Leaf
  | [] => []
  | field :: rest => field.leaves ++ leavesOf rest

end

private theorem leavesOf_eq_flatMap (fields : List LayoutField) : leavesOf fields = fields.flatMap (·.leaves) := by
  induction fields with
  | nil => rfl
  | cons field rest ih => simp [leavesOf, ih]

private theorem StructLayout.leaves_eq (layout : StructLayout) : layout.leaves = layout.fields.flatMap (·.leaves) := by
  obtain ⟨name, size, alignment, platform, fields⟩ := layout
  rw [StructLayout.leaves, leavesOf_eq_flatMap]

private theorem LayoutField.mem_leaves {field : LayoutField} {leaf : Leaf} :
    leaf ∈ field.leaves ↔ ∃ inner ∈ field.type.leaves, inner.shift field.offset = leaf := by
  obtain ⟨name, offset, type⟩ := field
  rw [LayoutField.leaves, List.mem_map]

theorem Alignment.Natural.dvd_of_le {a b : Nat} (first : Natural a) (second : Natural b) (below : a ≤ b) :
    a ∣ b := by
  obtain ⟨⟨i, rfl⟩, ⟨j, rfl⟩⟩ := And.intro first.power second.power
  exact Nat.pow_dvd_pow 2 ((Nat.pow_le_pow_iff_right (by decide)).mp below)

namespace StructSchema.Placed

variable {platform : Platform} {progress last : Progress} {fields : List SchemaField}
  {placed : List LayoutField}

theorem aligned (steps : Placed platform progress fields placed last) {field : LayoutField}
    (natural : ∀ field ∈ placed, Natural (AbiType.mk field.type platform).alignment)
    (member : field ∈ placed) : (AbiType.mk field.type platform).alignment ∣ field.offset := by
  induction steps with
  | nil => cases member
  | cons _ rounded _ _ ih =>
    rcases List.mem_cons.mp member with rfl | inside
    · exact (isLeast_of_forward? (natural _ List.mem_cons_self).power rounded).1.1
    · exact ih (fun other among => natural other (List.mem_cons_of_mem _ among)) inside

theorem alignment_dvd (steps : Placed platform progress fields placed last)
    (natural : ∀ field ∈ placed, Natural (AbiType.mk field.type platform).alignment)
    (start : Natural progress.alignment) {field : LayoutField} (member : field ∈ placed) :
    (AbiType.mk field.type platform).alignment ∣ last.alignment :=
  (natural field member).dvd_of_le (steps.alignment_natural start natural)
    (steps.alignment_isGreatest.2 (.inr ⟨field, member, rfl⟩))

end StructSchema.Placed

structure AbiType.LeavesPlaced (type : AbiType) : Prop where
  aligned : ∀ leaf ∈ type.native.leaves, (leaf.abi type.platform).alignment ∣ leaf.offset
  /-- A type that is itself aligned keeps its leaves aligned. -/
  coarser : ∀ leaf ∈ type.native.leaves, (leaf.abi type.platform).alignment ∣ type.alignment
  inside : ∀ leaf ∈ type.native.leaves, leaf.offset + (leaf.abi type.platform).width ≤ type.width
  ordered : type.native.leaves.Pairwise (Leaf.Before type.platform)

private theorem CScalar.leavesPlaced (own : CScalar) (platform : Platform) :
    AbiType.LeavesPlaced ⟨.scalar own, platform⟩ where
  aligned := by simp [NativeType.leaves]
  coarser := by simp [NativeType.leaves, Leaf.abi]
  inside := by simp [NativeType.leaves, Leaf.abi]
  ordered := by simp [NativeType.leaves]

namespace StructLayout

private theorem mem_leaves {layout : StructLayout} {leaf : Leaf} :
    leaf ∈ layout.leaves ↔ ∃ field ∈ layout.fields, ∃ inner ∈ field.type.leaves,
      inner.shift field.offset = leaf := by
  simp only [leaves_eq, List.mem_flatMap, LayoutField.mem_leaves]

private theorem leavesPlaced_of_placed {layout : StructLayout} {fields : List SchemaField} {last : Progress}
    (steps : Placed layout.platform ⟨0, 1⟩ fields layout.fields last)
    (natural : ∀ field ∈ layout.fields, Natural (layout.abiOf field).alignment)
    (each : ∀ field ∈ layout.fields, (layout.abiOf field).LeavesPlaced)
    (reached : last.size ≤ layout.size) (alignment : layout.alignment = last.alignment) :
    AbiType.LeavesPlaced ⟨.struct layout, layout.platform⟩ where
  aligned := by
    intro leaf found
    obtain ⟨field, member, inner, below, rfl⟩ := mem_leaves.mp found
    have whole := Nat.dvd_trans ((each field member).coarser inner below) (steps.aligned natural member)
    exact Nat.dvd_add whole ((each field member).aligned inner below)
  coarser := by
    intro leaf found
    obtain ⟨field, member, inner, below, rfl⟩ := mem_leaves.mp found
    rw [AbiType.alignment_struct, alignment]
    exact Nat.dvd_trans ((each field member).coarser inner below) (steps.alignment_dvd natural .one member)
  inside := by
    intro leaf found
    obtain ⟨field, member, inner, below, rfl⟩ := mem_leaves.mp found
    have within : inner.offset + (inner.abi layout.platform).width ≤ (layout.abiOf field).width :=
      (each field member).inside inner below
    calc field.offset + inner.offset + (inner.abi layout.platform).width
        = field.offset + (inner.offset + (inner.abi layout.platform).width) := Nat.add_assoc _ _ _
      _ ≤ field.offset + (layout.abiOf field).width := Nat.add_le_add_left within _
      _ ≤ last.size := (steps.within member).2
      _ ≤ layout.size := reached
  ordered := by
    rw [NativeType.leaves, leaves_eq, List.pairwise_flatMap]
    constructor
    · rintro ⟨name, offset, type⟩ member
      rw [LayoutField.leaves, List.pairwise_map]
      refine (each _ member).ordered.imp ?_
      intro a b before
      have before : a.offset + (a.abi layout.platform).width ≤ b.offset := before
      unfold Leaf.Before
      simp only [Leaf.shift, Leaf.abi] at before ⊢
      omega
    · refine steps.separate.imp_of_mem ?_
      intro a b first second before leaf found other later
      obtain ⟨inner, below, rfl⟩ := LayoutField.mem_leaves.mp found
      obtain ⟨next, behind, rfl⟩ := LayoutField.mem_leaves.mp later
      have within : inner.offset + (inner.abi layout.platform).width ≤ (layout.abiOf a).width :=
        (each a first).inside inner below
      unfold Leaf.Before
      simp only [Leaf.shift, Leaf.abi, abiOf] at within before ⊢
      omega

private theorem Computed.leavesPlaced {layout : StructLayout} (computed : layout.Computed) :
    AbiType.LeavesPlaced ⟨.struct layout, layout.platform⟩ := by
  -- The induction is over the nesting; a field that is a struct was laid out for the same platform.
  induction computed with
  | intro schema platform layout nested computed ih =>
    obtain ⟨_, _, last, placed, rounded, same⟩ := layout_eq_ok_iff.mp computed
    have home := platform_layout computed
    subst home
    have source : ∀ field ∈ layout.fields, ∀ inner, field.type = .struct inner → inner.Computed ∧
        AbiType.LeavesPlaced ⟨.struct inner, inner.platform⟩ := by
      intro field member inner shape
      obtain ⟨declared, among, _, type⟩ := placed.declared member
      have listed := (sorted_perm schema).mem_iff.mp among
      exact ⟨nested declared listed inner (type.trans shape), ih declared listed inner (type.trans shape)⟩
    refine leavesPlaced_of_placed placed ?_ ?_ (le_of_forward? rounded) (by rw [same])
    · intro field member
      cases shape : field.type with
      | scalar own => simpa [abiOf, shape] using own.width_natural layout.platform
      | struct inner => simpa [abiOf, shape] using (source field member inner shape).1.alignment_natural
    · intro field member
      have embeds := placed.embeds member
      cases shape : field.type with
      | scalar own => simpa [abiOf, shape] using own.leavesPlaced layout.platform
      | struct inner =>
        rw [shape] at embeds
        have leaves := (source field member inner shape).2
        rw [embeds.2] at leaves
        simpa [abiOf, shape] using leaves

theorem Computed.rounded {layout : StructLayout} (computed : layout.Computed) :
    ∃ reached, forward? reached layout.alignment = some layout.size := by
  obtain ⟨schema, platform, layout, _, laid⟩ := computed
  obtain ⟨_, _, last, _, rounded, same⟩ := layout_eq_ok_iff.mp laid
  have ends : layout.alignment = last.alignment := by rw [same]
  rw [← ends] at rounded
  exact ⟨last.size, rounded⟩

/-- Trailing padding rounds a struct up to a whole number of its alignments, so an array needs none in between. -/
theorem Computed.alignment_dvd_size {layout : StructLayout} (computed : layout.Computed) :
    layout.alignment ∣ layout.size := by
  obtain ⟨_, rounded⟩ := computed.rounded
  exact (isLeast_of_forward? computed.alignment_natural.power rounded).1.1

private theorem elementOffset?_eq_some_iff {layout : StructLayout} {index start : Nat} :
    layout.elementOffset? index = some start ↔ start = index * layout.size ∧ start < wordBound :=
  Alignment.mulWords?_eq_some_iff

/-- The leaves of a computed struct are aligned, follow one another and lie inside the struct. Elements of an array
begin at multiples of the struct's alignment and follow one another as well, so each leaf is aligned in all of them. -/
theorem leaves_apart {layout : StructLayout} (computed : layout.Computed) :
    (∀ leaf ∈ layout.leaves, (leaf.abi layout.platform).alignment ∣ leaf.offset ∧
      leaf.offset + (leaf.abi layout.platform).width ≤ layout.size) ∧
    (layout.leaves.Pairwise fun a b => a.offset < b.offset ∧ a.Before layout.platform b) ∧
    ∀ index start, layout.elementOffset? index = some start →
      layout.alignment ∣ start ∧
      (∀ leaf ∈ layout.leaves, (leaf.abi layout.platform).alignment ∣ (leaf.shift start).offset) ∧
      ∀ later behind, index < later → layout.elementOffset? later = some behind →
        start + layout.size ≤ behind := by
  have placed := computed.leavesPlaced
  refine ⟨fun leaf found => ⟨placed.aligned leaf found, placed.inside leaf found⟩, ?_, ?_⟩
  · refine placed.ordered.imp ?_
    intro a b before
    have filled : 0 < (a.abi layout.platform).width := a.type.width_pos layout.platform
    exact ⟨(Nat.lt_add_of_pos_right filled).trans_le before, before⟩
  · intro index start found
    obtain ⟨rfl, _⟩ := elementOffset?_eq_some_iff.mp found
    have whole : layout.alignment ∣ index * layout.size := Nat.dvd_mul_left_of_dvd computed.alignment_dvd_size _
    refine ⟨whole, ?_, ?_⟩
    · intro leaf member
      exact Nat.dvd_add (Nat.dvd_trans (placed.coarser leaf member) whole) (placed.aligned leaf member)
    · intro later behind after next
      obtain ⟨rfl, _⟩ := elementOffset?_eq_some_iff.mp next
      calc index * layout.size + layout.size = (index + 1) * layout.size := (Nat.succ_mul _ _).symm
        _ ≤ later * layout.size := Nat.mul_le_mul_right _ after

theorem record_computed : Specimen.record.Computed := by
  refine .intro Specimen.recordSchema .llp64 Specimen.record ?_ (by cbv)
  intro field member inner shape
  simp only [Specimen.recordSchema, StructSchema.fieldAt, StructSchema.empty, List.nil_append,
    List.cons_append, List.mem_cons, List.not_mem_nil, or_false] at member
  rcases member with rfl | rfl | rfl <;> cases shape
  exact Specimen.axis_computed

/-- The record holds four leaves, two of them in a struct of its own, and in its fourth element they lie as aligned
as in the first. -/
theorem leaves_apart_record :
    Specimen.record.Computed ∧ Specimen.record.elementOffset? 3 = some 96 ∧
      Specimen.record.leaves = [⟨0, .u8⟩, ⟨8, .u16⟩, ⟨16, .f64⟩, ⟨24, .long⟩] ∧
      ∀ leaf ∈ Specimen.record.leaves, (leaf.abi .llp64).alignment ∣ (leaf.shift 96).offset := by
  have third : Specimen.record.elementOffset? 3 = some 96 := by decide
  obtain ⟨_, _, elements⟩ := leaves_apart record_computed
  exact ⟨record_computed, third, by cbv, (elements 3 96 third).2.1⟩

end StructLayout

theorem NativeType.Computed.alignment_dvd_width {type : NativeType} (computed : type.Computed) (platform : Platform) :
    (AbiType.mk type platform).alignment ∣ (AbiType.mk type platform).width := by
  cases type with
  | scalar own => exact Nat.dvd_refl _
  | struct layout => exact StructLayout.Computed.alignment_dvd_size computed

end Interop
