import Interop.Proofs.CType.Leaves

/-! The fields of a computed struct, and the structs that lie in it at any depth.
Main statement: `Computed.keeps`, what every field of a computed struct satisfies. -/
namespace Interop
open Interop.Alignment StructSchema

theorem find?_of_distinct {α : Type} {key : α → String} {items : List α} (distinct : (items.map key).Nodup)
    {item : α} (member : item ∈ items) : (items.find? fun other => key other == key item) = some item := by
  induction items with
  | nil => cases member
  | cons other rest ih =>
    rw [List.map_cons, List.nodup_cons] at distinct
    rcases List.mem_cons.mp member with rfl | inside
    · simp only [List.find?_cons, beq_self_eq_true]
    · have different : (key other == key item) = false := by
        apply beq_false_of_ne
        intro same
        rw [same] at distinct
        exact distinct.1 (List.mem_map_of_mem inside)
      simp only [List.find?_cons, different, ih distinct.2 inside]

theorem forall_mem_snoc {α : Type} {p : α → Prop} {items : List α} {last : α} (before : ∀ item ∈ items, p item)
    (final : p last) : ∀ item ∈ items ++ [last], p item :=
  List.forall_mem_append.mpr ⟨before, List.forall_mem_singleton.mpr final⟩

namespace StructLayout

structure Keeps (layout : StructLayout) (field : LayoutField) : Prop where
  computed : field.type.Computed
  embeds : Embeds layout.platform field.type
  inside : field.offset + (layout.abiOf field).width ≤ layout.size
  aligned : (layout.abiOf field).alignment ∣ field.offset
  coarser : (layout.abiOf field).alignment ∣ layout.alignment

theorem Computed.keeps {layout : StructLayout} (computed : layout.Computed) {field : LayoutField}
    (member : field ∈ layout.fields) : layout.Keeps field := by
  obtain ⟨schema, platform, layout, nested, laid⟩ := computed
  obtain ⟨_, _, last, placed, rounded, same⟩ := layout_eq_ok_iff.mp laid
  have home := platform_layout laid
  have alignment : layout.alignment = last.alignment := by rw [same]
  subst home
  have each : ∀ other ∈ layout.fields, other.type.Computed := by
    intro other among
    obtain ⟨source, listed, _, type⟩ := placed.declared among
    have inner := nested source ((sorted_perm schema).mem_iff.mp listed)
    rw [← type]
    cases shape : source.type with
    | scalar own => trivial
    | struct struct => exact inner struct shape
  have natural : ∀ other ∈ layout.fields, Natural (AbiType.mk other.type layout.platform).alignment :=
    fun other among => (each other among).alignment_natural layout.platform
  exact {
    computed := each field member
    embeds := placed.embeds member
    inside := (placed.within member).2.trans (le_of_forward? rounded)
    aligned := placed.aligned natural member
    coarser := alignment ▸ placed.alignment_dvd natural .one member }

theorem Computed.names_nodup {layout : StructLayout} (computed : layout.Computed) :
    (layout.fields.map (·.name)).Nodup := by
  obtain ⟨schema, platform, layout, _, laid⟩ := computed
  obtain ⟨_, names, _, placed, _, _⟩ := layout_eq_ok_iff.mp laid
  have same := congrArg (List.map Prod.fst) placed.same_fields
  rw [List.map_map, List.map_map] at same
  rw [show layout.fields.map (·.name) = schema.sorted.map (·.name) from same]
  exact names

theorem Computed.field?_of_mem {layout : StructLayout} (computed : layout.Computed) {field : LayoutField}
    (member : field ∈ layout.fields) : layout.field? field.name = some field :=
  find?_of_distinct computed.names_nodup member

/-- A struct lies in another one, as a field or in a field. -/
inductive Encloses : StructLayout → StructLayout → Prop
  | field {outer inner : StructLayout} {field : LayoutField} (member : field ∈ outer.fields)
    (type : field.type = .struct inner) : Encloses outer inner
  | deeper {outer middle inner : StructLayout} {field : LayoutField} (member : field ∈ outer.fields)
    (type : field.type = .struct middle) (rest : Encloses middle inner) : Encloses outer inner

theorem Encloses.embedded {outer inner : StructLayout} (encloses : outer.Encloses inner) (computed : outer.Computed) :
    inner.size ≠ 0 ∧ inner.platform = outer.platform := by
  induction encloses with
  | field member type =>
    have embeds := (computed.keeps member).embeds
    rwa [type] at embeds
  | deeper member type _ ih =>
    have keeps := computed.keeps member
    have embeds := keeps.embeds
    have middle := keeps.computed
    rw [type] at embeds middle
    obtain ⟨filled, same⟩ := ih middle
    exact ⟨filled, same.trans embeds.2⟩

end StructLayout
end Interop
