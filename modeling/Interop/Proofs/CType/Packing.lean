import Interop.Proofs.CType.Leaves
import Interop.Proofs.CType.Refusals
import Mathlib.Algebra.GroupWithZero.Nat

/-! Structs of the same fields in different orders. An order changes the padding and nothing else, and where alignments
fall from field to field there is padding at the end only.
Main statement: `orders_differ_in_padding`. -/
namespace Interop
open Interop.Alignment

structure StructLayout.Gapless (layout : StructLayout) : Prop where
  first : ∀ field, layout.fields.head? = some field → field.offset = 0
  next : layout.fields.IsChain fun before field => field.offset = before.offset + (layout.abiOf before).width

namespace StructSchema

def packedWidth (platform : Platform) (fields : List (String × NativeType)) : Nat :=
  (fields.map fun field => (AbiType.mk field.2 platform).width).sum

def largestAlignment (platform : Platform) (fields : List (String × NativeType)) : Nat :=
  (fields.map fun field => (AbiType.mk field.2 platform).alignment).foldl max 1

/-- The declaration has exactly the fields, and its slots bring them into some order. -/
structure Arranges (schema : StructSchema) (fields : List (String × NativeType)) : Prop where
  slots : (schema.fields.map (·.slot)).Perm (List.range schema.fields.length)
  fields : (schema.fields.map fun field => (field.name, field.type)).Perm fields

/-- In the order of the slots, no field is aligned more strictly than one before it. -/
def Falling (schema : StructSchema) (platform : Platform) : Prop :=
  schema.sorted.Pairwise fun before field =>
    (AbiType.mk field.type platform).alignment ≤ (AbiType.mk before.type platform).alignment

private theorem exactFields_alignment (platform : Platform) (fields : List SchemaField) (progress : Progress) :
    (exactFields platform progress fields).2.alignment =
      (fields.map fun field => (AbiType.mk field.type platform).alignment).foldl max progress.alignment := by
  induction fields generalizing progress with
  | nil => rfl
  | cons field rest ih => exact ih _

section Placing

variable {platform : Platform} {fields : List SchemaField}
  (natural : ∀ field ∈ fields, Natural (AbiType.mk field.type platform).alignment)
include natural

private theorem packed_le_exactFields (progress : Progress) :
    progress.size + (fields.map fun field => (AbiType.mk field.type platform).width).sum ≤
      (exactFields platform progress fields).2.size := by
  induction fields generalizing progress with
  | nil => exact Nat.le_refl _
  | cons field rest ih =>
    obtain ⟨first, others⟩ := List.forall_mem_cons.mp natural
    have start := (isLeast_roundUp first.pos progress.size).1.2
    have later := ih others (progress.advance ⟨field.type, platform⟩)
    rw [List.map_cons, List.sum_cons, ← Nat.add_assoc]
    exact (Nat.add_le_add_right (Nat.add_le_add_right start _) _).trans later

private theorem exactFields_of_falling
    (whole : ∀ field ∈ fields, (AbiType.mk field.type platform).alignment ∣ (AbiType.mk field.type platform).width)
    (falling : fields.Pairwise fun before field =>
      (AbiType.mk field.type platform).alignment ≤ (AbiType.mk before.type platform).alignment)
    (progress : Progress) (start : ∀ field ∈ fields, (AbiType.mk field.type platform).alignment ∣ progress.size) :
    (exactFields platform progress fields).2.size =
        progress.size + (fields.map fun field => (AbiType.mk field.type platform).width).sum ∧
      (∀ first, (exactFields platform progress fields).1.head? = some first → first.offset = progress.size) ∧
      (exactFields platform progress fields).1.IsChain fun before field =>
        field.offset = before.offset + (AbiType.mk before.type platform).width := by
  -- Where alignments fall, every field ends at a multiple of all alignments behind it.
  induction fields generalizing progress with
  | nil => exact ⟨rfl, nofun, .nil⟩
  | cons field rest ih =>
    obtain ⟨first, others⟩ := List.forall_mem_cons.mp natural
    obtain ⟨filled, wholes⟩ := List.forall_mem_cons.mp whole
    obtain ⟨coarser, falling⟩ := List.pairwise_cons.mp falling
    obtain ⟨here, later⟩ := List.forall_mem_cons.mp start
    have offset := roundUp_of_dvd first.pos here
    have next : (progress.advance ⟨field.type, platform⟩).size =
        progress.size + (AbiType.mk field.type platform).width := by rw [Progress.advance, offset]
    have reached : ∀ other ∈ rest,
        (AbiType.mk other.type platform).alignment ∣ (progress.advance ⟨field.type, platform⟩).size := by
      intro other member
      rw [next]
      have finer := (others other member).dvd_of_le first (coarser other member)
      exact Nat.dvd_add (later other member) (Nat.dvd_trans finer filled)
    obtain ⟨size, head, chain⟩ := ih others wholes falling _ reached
    refine ⟨?_, ?_, ?_⟩
    · rw [exactFields, size, next, List.map_cons, List.sum_cons, Nat.add_assoc]
    · rintro _ ⟨⟩
      exact offset
    · refine chain.cons ?_
      intro second found
      rw [head second found, next, offset]

end Placing

private theorem layable_of_layout {schema : StructSchema} {platform : Platform} {layout : StructLayout}
    (natural : ∀ field ∈ schema.fields, Natural (AbiType.mk field.type platform).alignment)
    (laid : schema.layout platform = .ok layout) : schema.Layable platform ∧ layout = schema.exactLayout platform := by
  obtain layable | ⟨error, fails⟩ := layable_or_fails schema platform
  · exact ⟨layable, Except.ok.inj (laid.symm.trans (layout_of_layable natural layable))⟩
  · cases laid.symm.trans (layout_of_fails natural fails)

namespace Arranges

variable {schema : StructSchema} {platform : Platform} {fields : List (String × NativeType)}
  (arranges : schema.Arranges fields)
include arranges

private theorem sorted : (schema.sorted.map fun field => (field.name, field.type)).Perm fields :=
  (schema.sorted_perm.map _).trans arranges.fields

private theorem names_nodup (distinct : (fields.map (·.1)).Nodup) : (schema.fields.map (·.name)).Nodup := by
  have names := arranges.fields.map (·.1)
  rw [List.map_map] at names
  exact names.nodup_iff.mpr distinct

private theorem packed_sorted :
    (schema.sorted.map fun field => (AbiType.mk field.type platform).width).sum = packedWidth platform fields := by
  have widths := arranges.sorted.map fun field => (AbiType.mk field.2 platform).width
  rw [List.map_map] at widths
  exact widths.sum_nat

private theorem alignment_exactLayout : (schema.exactLayout platform).alignment = largestAlignment platform fields := by
  have alignments := arranges.sorted.map fun field => (AbiType.mk field.2 platform).alignment
  rw [List.map_map] at alignments
  exact (exactFields_alignment platform schema.sorted ⟨0, 1⟩).trans (alignments.foldl_eq 1)

private theorem size_exactLayout : (schema.exactLayout platform).size =
    roundUp (exactFields platform ⟨0, 1⟩ schema.sorted).2.size (largestAlignment platform fields) := by
  rw [← arranges.alignment_exactLayout]
  rfl

variable (types : ∀ field ∈ fields, field.2.Computed ∧ Embeds platform field.2)
include types

private theorem types_fields : ∀ field ∈ schema.fields, field.type.Computed ∧ Embeds platform field.type := by
  intro field member
  exact types _ (arranges.fields.mem_iff.mp (List.mem_map_of_mem member))

private theorem natural_fields : ∀ field ∈ schema.fields, Natural (AbiType.mk field.type platform).alignment :=
  fun field member => (arranges.types_fields types field member).1.alignment_natural platform

private theorem largest_natural : Natural (largestAlignment platform fields) := by
  rw [← arranges.alignment_exactLayout]
  exact exactFields_natural (natural_sorted (arranges.natural_fields types)) .one

private theorem roundUp_packed_le_exactLayout : largestAlignment platform fields ∣ (schema.exactLayout platform).size ∧
    roundUp (packedWidth platform fields) (largestAlignment platform fields) ≤ (schema.exactLayout platform).size := by
  have largest := arranges.largest_natural types
  have packed := packed_le_exactFields (natural_sorted (arranges.natural_fields types)) ⟨0, 1⟩
  rw [arranges.packed_sorted, Nat.zero_add] at packed
  obtain ⟨divides, reached⟩ := (isLeast_roundUp largest.pos (exactFields platform ⟨0, 1⟩ schema.sorted).2.size).1
  rw [arranges.size_exactLayout]
  exact ⟨divides, (isLeast_roundUp largest.pos _).2 ⟨divides, packed.trans reached⟩⟩

private theorem exactLayout_of_falling (falling : schema.Falling platform) : (schema.exactLayout platform).Gapless ∧
    (schema.exactLayout platform).size = roundUp (packedWidth platform fields) (largestAlignment platform fields) := by
  have whole : ∀ field ∈ schema.sorted,
      (AbiType.mk field.type platform).alignment ∣ (AbiType.mk field.type platform).width := by
    intro field member
    exact (arranges.types_fields types field (schema.sorted_perm.mem_iff.mp member)).1.alignment_dvd_width platform
  obtain ⟨size, first, next⟩ := exactFields_of_falling (natural_sorted (arranges.natural_fields types)) whole falling
    ⟨0, 1⟩ fun _ _ => Nat.dvd_zero _
  rw [arranges.packed_sorted, Nat.zero_add] at size
  refine ⟨⟨first, next⟩, ?_⟩
  rw [arranges.size_exactLayout, size]

end Arranges

private theorem arranges_declare (name : String) {order fields : List (String × NativeType)} (perm : order.Perm fields)
    (room : order.length < wordBound) : Arranges ((empty name).declare order) fields := by
  have inOrder : ((empty name).declare order).InOrder := by
    apply (InOrder.empty name).declare
    rwa [empty, List.length_nil, Nat.zero_add]
  have same := fields_declare (empty name) order
  rw [empty, List.map_nil, List.nil_append] at same
  exact ⟨.of_eq inOrder.slots, (List.Perm.of_eq same).trans perm⟩

/-- All orders of the same fields have one alignment, which divides the size, and no order is smaller than the fields
alone, rounded up to that alignment. Where alignments fall from field to field there is no gap between the fields, that
size is reached, and there is a layout if any order has one. -/
theorem orders_differ_in_padding {platform : Platform} {fields : List (String × NativeType)}
    (distinct : (fields.map (·.1)).Nodup) (types : ∀ field ∈ fields, field.2.Computed ∧ Embeds platform field.2) :
    (∀ schema layout, Arranges schema fields → schema.layout platform = .ok layout →
      layout.alignment = largestAlignment platform fields ∧ largestAlignment platform fields ∣ layout.size ∧
        roundUp (packedWidth platform fields) (largestAlignment platform fields) ≤ layout.size) ∧
    ∀ schema, Arranges schema fields → schema.Falling platform →
      (∀ layout, schema.layout platform = .ok layout → layout.Gapless ∧
        layout.size = roundUp (packedWidth platform fields) (largestAlignment platform fields)) ∧
      ∀ other layout, Arranges other fields → other.layout platform = .ok layout →
        ∃ packed, schema.layout platform = .ok packed := by
  constructor
  · intro schema layout arranges laid
    obtain ⟨_, rfl⟩ := layable_of_layout (arranges.natural_fields types) laid
    exact ⟨arranges.alignment_exactLayout, arranges.roundUp_packed_le_exactLayout types⟩
  · intro schema arranges falling
    have natural := arranges.natural_fields types
    obtain ⟨gapless, size⟩ := arranges.exactLayout_of_falling types falling
    constructor
    · intro layout laid
      obtain ⟨_, rfl⟩ := layable_of_layout natural laid
      exact ⟨gapless, size⟩
    · intro other layout reordered laid
      obtain ⟨fits, _⟩ := layable_of_layout (reordered.natural_fields types) laid
      have least := (reordered.roundUp_packed_le_exactLayout types).2
      have layable : schema.Layable platform := {
        slots := arranges.slots
        names := arranges.names_nodup distinct
        embeds := fun field member => (arranges.types_fields types field member).2
        size := size.trans_lt (least.trans_lt fits.size) }
      exact ⟨_, layout_of_layable natural layable⟩

namespace Specimen

def fields : List (String × NativeType) :=
  [("flag", .scalar .u8), ("axis", .struct Specimen.axis), ("count", .scalar .long)]

def packedSchema : StructSchema :=
  (empty "packed").declare [("axis", .struct Specimen.axis), ("count", .scalar .long), ("flag", .scalar .u8)]

end Specimen

/-- As a record the fields need thirty-two bytes. With the flag at the end they have no gaps and need twenty-four. -/
theorem orders_differ_in_padding_record :
    ((Specimen.fields.map (·.1)).Nodup ∧
      ∀ field ∈ Specimen.fields, field.2.Computed ∧ Embeds .llp64 field.2) ∧
    (Arranges Specimen.recordSchema Specimen.fields ∧ Specimen.recordSchema.layout .llp64 = .ok Specimen.record ∧
      24 ≤ Specimen.record.size) ∧
    Arranges Specimen.packedSchema Specimen.fields ∧ Specimen.packedSchema.Falling .llp64 ∧
      ∃ packed, Specimen.packedSchema.layout .llp64 = .ok packed ∧ packed.Gapless ∧ packed.size = 24 := by
  have distinct : (Specimen.fields.map (·.1)).Nodup := by decide
  have types : ∀ field ∈ Specimen.fields, field.2.Computed ∧ Embeds .llp64 field.2 := by
    intro field member
    simp only [Specimen.fields, List.mem_cons, List.not_mem_nil, or_false] at member
    rcases member with rfl | rfl | rfl
    · exact ⟨trivial, trivial⟩
    · exact ⟨Specimen.axis_computed, by decide, rfl⟩
    · exact ⟨trivial, trivial⟩
  have record : Arranges Specimen.recordSchema Specimen.fields :=
    ⟨by decide, (List.perm_append_singleton _ [_, _]).symm⟩
  have laid : Specimen.recordSchema.layout .llp64 = .ok Specimen.record := by cbv
  have packed : Arranges Specimen.packedSchema Specimen.fields :=
    arranges_declare "packed" (List.perm_append_singleton _ [_, _]) (by decide)
  have falling : Specimen.packedSchema.Falling .llp64 := by
    have order : Specimen.packedSchema.InOrder := (InOrder.empty "packed").declare (by decide)
    rw [Falling, order.sorted_eq]
    simp [Specimen.packedSchema, declare, field, fieldAt, empty, Specimen.axis, CScalar.width, Platform.long,
      Width.bytes]
  have least : roundUp (packedWidth .llp64 Specimen.fields) (largestAlignment .llp64 Specimen.fields) = 24 := by decide
  obtain ⟨bounds, orders⟩ := orders_differ_in_padding distinct types
  obtain ⟨gapless, succeeds⟩ := orders _ packed falling
  obtain ⟨layout, computed⟩ := succeeds _ _ record laid
  have whole := (bounds _ _ record laid).2.2
  obtain ⟨tight, size⟩ := gapless layout computed
  rw [least] at whole size
  exact ⟨⟨distinct, types⟩, ⟨record, laid, whole⟩, packed, falling, layout, computed, tight, size⟩

end StructSchema
end Interop
