import Interop.Proofs.CType.Fields
import Interop.Proofs.Marshal.Resolution

/-! Structs without bytes, which no struct takes as a field and no signature by value. One of the two looks at the size
of a layout and the other at its fields.
Main statement: `zero_widths_refused`. -/
namespace Interop
open Interop.Alignment Outcome StructSchema

namespace StructLayout

private theorem Computed.size_eq_zero_iff {layout : StructLayout} (computed : layout.Computed) :
    layout.size = 0 ↔ layout.fields = [] := by
  constructor
  · intro bare
    apply List.eq_nil_iff_forall_not_mem.mpr
    intro field member
    have keeps := computed.keeps member
    have inside := keeps.inside
    have filled : 0 < (layout.abiOf field).width := keeps.embeds.width_pos
    omega
  · intro none
    obtain ⟨schema, platform, layout, _, laid⟩ := computed
    obtain ⟨_, _, last, placed, rounded, _⟩ := layout_eq_ok_iff.mp laid
    rw [none] at placed
    generalize schema.sorted = sources at placed
    -- Without fields the progress is still where it starts, at no bytes and an alignment of one.
    cases placed
    rw [forward?_of_dvd Natural.one.power Natural.one.word (Nat.dvd_zero 1) (by decide)] at rounded
    exact (Option.some.inj rounded).symm

private theorem Computed.embeds_iff {layout : StructLayout} (computed : layout.Computed) (platform : Platform) :
    Embeds platform (.struct layout) ↔ layout.fields ≠ [] ∧ layout.platform = platform := by
  rw [Embeds, ne_eq, computed.size_eq_zero_iff]

private theorem Computed.size_lt {layout : StructLayout} (computed : layout.Computed) : layout.size < wordBound := by
  obtain ⟨_, rounded⟩ := computed.rounded
  have natural := computed.alignment_natural
  exact ((forward?_eq_some_iff natural.power natural.word).mp rounded).2

private theorem Computed.layout_single {layout : StructLayout} (computed : layout.Computed)
    (embeds : Embeds layout.platform (.struct layout)) (name field : String) :
    ((empty name).field field (.struct layout)).layout layout.platform = .ok
      ⟨name, layout.size, layout.alignment, layout.platform, [⟨field, 0, .struct layout⟩]⟩ := by
  have natural := computed.alignment_natural
  have largest : max 1 layout.alignment = layout.alignment := Nat.max_eq_right natural.pos
  have sorted : ((empty name).field field (.struct layout)).sorted = [⟨0, field, .struct layout⟩] :=
    List.mergeSort_singleton _
  have placed : Placed layout.platform ⟨0, 1⟩ [⟨0, field, .struct layout⟩] [⟨field, 0, .struct layout⟩]
      ⟨0 + layout.size, max 1 layout.alignment⟩ := by
    refine .cons embeds (forward?_of_dvd natural.power natural.word (Nat.dvd_zero _) (by decide)) ?_ (.nil _)
    rw [Nat.zero_add]
    exact computed.size_lt
  have rounded := forward?_of_dvd natural.power natural.word computed.alignment_dvd_size computed.size_lt
  rw [Nat.zero_add, largest] at placed
  rw [layout_eq_ok_iff, sorted]
  exact ⟨rfl, List.nodup_singleton _, _, placed, rounded, rfl⟩

end StructLayout

/-! ## Fields and arguments -/

private theorem StructLayout.Computed.resolveField_eq {layout : StructLayout} (computed : layout.Computed)
    (platform : Platform) :
    resolveField platform (.struct layout) = Signature.resolveType platform (.struct layout) := by
  simp only [resolveField, Signature.resolveType, List.isEmpty_iff, computed.size_eq_zero_iff]

private theorem NativeType.Computed.resolveField_eq {type : NativeType} (computed : type.Computed)
    (platform : Platform) :
    resolveField platform type = Signature.resolveType platform type := by
  cases type with
  | scalar own => rfl
  | struct layout => exact StructLayout.Computed.resolveField_eq computed platform

/-- Some struct that can be laid out for the platform has a field of the type. -/
def NativeType.Embeddable (platform : Platform) (type : NativeType) : Prop :=
  ∃ schema layout, type ∈ schema.fields.map (·.type) ∧ StructSchema.layout schema platform = .ok layout

/-- Some signature on the platform passes the type or returns it. -/
def NativeType.Passable (platform : Platform) (type : NativeType) : Prop :=
  ∃ params result signature, type ∈ params ++ result.toList ∧ Signature.resolve params result platform = .ok signature

private theorem StructSchema.embeds_of_layout {schema : StructSchema} {platform : Platform} {layout : StructLayout}
    (laid : schema.layout platform = .ok layout) {type : NativeType} (member : type ∈ schema.fields.map (·.type)) :
    Embeds platform type := by
  obtain ⟨_, _, _, placed, _⟩ := layout_eq_ok_iff.mp laid
  obtain ⟨source, listed, rfl⟩ := List.mem_map.mp member
  have among : (source.name, source.type) ∈ layout.fields.map fun field => (field.name, field.type) := by
    rw [placed.same_fields]
    exact List.mem_map_of_mem ((sorted_perm schema).mem_iff.mpr listed)
  obtain ⟨field, inside, same⟩ := List.mem_map.mp among
  obtain ⟨_, type⟩ := Prod.mk.inj same
  exact type ▸ placed.embeds inside

private theorem StructLayout.Computed.embeddable_iff {layout : StructLayout} (computed : layout.Computed)
    (platform : Platform) : (NativeType.struct layout).Embeddable platform ↔ Embeds platform (.struct layout) := by
  constructor
  · intro embeddable
    obtain ⟨schema, outer, member, laid⟩ := embeddable
    exact embeds_of_layout laid member
  · intro embeds
    obtain rfl := embeds.2
    exact ⟨_, _, List.mem_singleton.mpr rfl, computed.layout_single embeds "" ""⟩

private theorem Signature.passable_iff {platform : Platform} {type : NativeType} :
    type.Passable platform ↔ ∃ abi, resolveType platform type = .ok abi := by
  constructor
  · intro passable
    obtain ⟨params, result, signature, passed, resolved⟩ := passable
    rw [← failure?_eq_none_iff]
    have accepted := failure?_resolve params result platform
    rw [failure?_eq_none_iff.mpr ⟨signature, resolved⟩] at accepted
    exact List.findSome?_eq_none_iff.mp accepted.symm type passed
  · intro resolved
    obtain ⟨abi, resolved⟩ := resolved
    refine ⟨[type], none, ⟨[abi], none, platform, .checked⟩, List.mem_singleton.mpr rfl, ?_⟩
    simp only [resolve, List.mapM_cons, resolved]
    rfl

private theorem StructLayout.Computed.passable_iff {layout : StructLayout} (computed : layout.Computed)
    (platform : Platform) : (NativeType.struct layout).Passable platform ↔ Embeds platform (.struct layout) := by
  rw [Signature.passable_iff, ← computed.resolveField_eq]
  simp only [resolveField_eq_ok_iff, exists_eq_left]

/-! ## Types in a type -/

/-- A type is another one or lies in it, however deep. -/
inductive AbiType.Contains : AbiType → AbiType → Prop
  | self (type : AbiType) : Contains type type
  | field {layout : StructLayout} {platform : Platform} {field : LayoutField} {inner : AbiType}
    (member : field ∈ layout.fields) (rest : Contains (layout.abiOf field) inner) :
    Contains ⟨.struct layout, platform⟩ inner

private theorem AbiType.Contains.width_pos {outer inner : AbiType} (contains : outer.Contains inner)
    (computed : outer.native.Computed) (filled : 0 < outer.width) : 0 < inner.width := by
  induction contains with
  | self type => exact filled
  | @field layout platform field inner member rest ih =>
    have keeps := StructLayout.Computed.keeps computed member
    exact ih keeps.computed keeps.embeds.width_pos

private theorem Signature.width_pos {params : List NativeType} {result : Option NativeType} {platform : Platform}
    {signature : Signature} (computed : ∀ type ∈ params ++ result.toList, type.Computed)
    (resolved : resolve params result platform = .ok signature) {outer inner : AbiType}
    (member : outer ∈ signature.params ++ signature.result.toList) (contains : outer.Contains inner) :
    0 < inner.width := by
  obtain ⟨type, passed, here⟩ := exists_of_resolve resolved member
  have whole := computed type passed
  rw [← whole.resolveField_eq, resolveField_eq_ok_iff] at here
  obtain ⟨rfl, embeds⟩ := here
  exact contains.width_pos whole embeds.width_pos

/-- A computed struct is without bytes exactly if it is without fields. So the two checks, one of them on the size and
one on the fields, turn away the same structs, and with the same error: what can be a field on a platform can be an
argument or a result there. No type is without bytes that lies in a computed struct or in a signature. -/
theorem zero_widths_refused :
    (∀ layout : StructLayout, layout.Computed →
      (layout.size = 0 ↔ layout.fields = []) ∧
      (∀ platform, resolveField platform (.struct layout) = Signature.resolveType platform (.struct layout)) ∧
      (∀ platform, (NativeType.struct layout).Embeddable platform ↔
        layout.fields ≠ [] ∧ layout.platform = platform) ∧
      (∀ platform, (NativeType.struct layout).Passable platform ↔
        layout.fields ≠ [] ∧ layout.platform = platform) ∧
      ∀ field ∈ layout.fields, ∀ inner, (layout.abiOf field).Contains inner → 0 < inner.width) ∧
    ∀ params result platform signature, (∀ type ∈ params ++ result.toList, NativeType.Computed type) →
      Signature.resolve params result platform = .ok signature →
      ∀ outer ∈ signature.params ++ signature.result.toList, ∀ inner, outer.Contains inner → 0 < inner.width := by
  constructor
  · intro layout computed
    refine ⟨computed.size_eq_zero_iff, computed.resolveField_eq, ?_, ?_, ?_⟩
    · intro platform
      rw [computed.embeddable_iff, computed.embeds_iff]
    · intro platform
      rw [computed.passable_iff, computed.embeds_iff]
    · intro field member inner contains
      have keeps := computed.keeps member
      exact contains.width_pos keeps.computed keeps.embeds.width_pos
  · intro params result platform signature computed resolved outer member inner contains
    exact Signature.width_pos computed resolved member contains

def Specimen.hollow : StructLayout := ⟨"hollow", 0, 1, .llp64, []⟩

private theorem Specimen.hollow_computed : hollow.Computed := .intro (empty "hollow") .llp64 hollow nofun (by cbv)

/-- A record can be a field and an argument, with its axis and the value in there, and a hollow struct can be neither. -/
theorem zero_widths_refused_hollow :
    (NativeType.struct Specimen.record).Embeddable .llp64 ∧ (NativeType.struct Specimen.record).Passable .llp64 ∧
      ¬ (NativeType.struct Specimen.hollow).Embeddable .llp64 ∧ ¬ (NativeType.struct Specimen.hollow).Passable .llp64 ∧
      ∀ inner, (AbiType.mk (.struct Specimen.record) .llp64).Contains inner → 0 < inner.width := by
  obtain ⟨structs, signatures⟩ := zero_widths_refused
  obtain ⟨_, _, embeddable, passable, _⟩ := structs Specimen.record StructLayout.record_computed
  obtain ⟨_, _, notEmbeddable, notPassable, _⟩ := structs Specimen.hollow Specimen.hollow_computed
  have filled : Specimen.record.fields ≠ [] ∧ Specimen.record.platform = .llp64 := ⟨List.cons_ne_nil _ _, rfl⟩
  have bare : ¬ (Specimen.hollow.fields ≠ [] ∧ Specimen.hollow.platform = .llp64) := fun both => both.1 rfl
  have resolved : Signature.resolve [.struct Specimen.record] none .llp64 =
      .ok ⟨[⟨.struct Specimen.record, .llp64⟩], none, .llp64, .checked⟩ := rfl
  refine ⟨(embeddable _).mpr filled, (passable _).mpr filled, mt (notEmbeddable _).mp bare,
    mt (notPassable _).mp bare, ?_⟩
  apply signatures _ _ _ _ ?_ resolved _ (List.mem_singleton.mpr rfl)
  intro type member
  rw [List.mem_singleton.mp member]
  exact StructLayout.record_computed

end Interop
