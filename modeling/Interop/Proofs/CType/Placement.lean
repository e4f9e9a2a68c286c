import Interop.CType.Schema
import Interop.Proofs.Number.Rounding
import Interop.Proofs.Outcome
import Mathlib.Data.List.Basic
import Mathlib.Data.List.Sort

/-! What a successful layout has done, step by step: which fields passed the checks and where each was placed.
Main statements: `layout_eq_ok_iff` opens a layout, and `Placed` says what every placement was. -/
namespace Interop
open Interop.Alignment Outcome

namespace AbiType

@[simp] theorem width_scalar (own : CScalar) (platform : Platform) :
    (AbiType.mk (.scalar own) platform).width = own.width platform := rfl

@[simp] theorem width_struct (layout : StructLayout) (platform : Platform) :
    (AbiType.mk (.struct layout) platform).width = layout.size := rfl

@[simp] theorem alignment_scalar (own : CScalar) (platform : Platform) :
    (AbiType.mk (.scalar own) platform).alignment = own.width platform := rfl

@[simp] theorem alignment_struct (layout : StructLayout) (platform : Platform) :
    (AbiType.mk (.struct layout) platform).alignment = layout.alignment := rfl

end AbiType

theorem CScalar.width_pos (own : CScalar) (platform : Platform) : 0 < own.width platform := by
  cases own <;> cases platform <;> decide

namespace StructSchema

theorem checkFields_eq_ok_iff {struct : String} {slot : Nat} {previous : Option SchemaField}
    {seen : List String} {fields : List SchemaField}
    (before : ∀ prior, previous = some prior → prior.slot < slot) :
    checkFields struct slot previous seen fields = .ok () ↔
      fields.map (·.slot) = List.range' slot fields.length ∧ (fields.map (·.name)).Nodup ∧
        ∀ field ∈ fields, field.name ∉ seen := by
  induction fields generalizing slot previous seen with
  | nil => simp [checkFields]
  | cons field rest ih =>
    have tail := @ih (slot + 1) (some field) (field.name :: seen)
    simp only [checkFields, List.map_cons, List.length_cons, List.range'_succ, List.cons.injEq,
      List.nodup_cons, List.mem_cons, forall_eq_or_imp]
    split
    next prior repeated =>
      obtain ⟨found, same⟩ := Option.filter_eq_some_iff.mp repeated
      have lower := before prior found
      have claimed : prior.slot = field.slot := by simpa using same
      constructor
      · intro ok; cases ok
      · rintro ⟨⟨here, _⟩, _⟩; omega
    next =>
      split
      next off =>
        constructor
        · intro ok; cases ok
        · rintro ⟨⟨here, _⟩, _⟩; exact absurd here off
      next here =>
        have here : field.slot = slot := by simpa using here
        split
        next known =>
          constructor
          · intro ok; cases ok
          · rintro ⟨_, _, new, _⟩; exact absurd known new
        next new =>
          rw [tail (by rintro prior ⟨⟩; omega)]
          simp only [List.mem_cons, not_or, List.mem_map, not_exists, not_and]
          constructor
          · rintro ⟨slots, names, fresh⟩
            exact ⟨⟨here, slots⟩, ⟨fun other member same => (fresh other member).1 same, names⟩, new,
              fun other member => (fresh other member).2⟩
          · rintro ⟨⟨_, slots⟩, ⟨different, names⟩, _, fresh⟩
            exact ⟨slots, names, fun other member => ⟨different other member, fresh other member⟩⟩

/-- A field type has bytes and, where it is a struct, the platform of its surroundings. -/
def Embeds (platform : Platform) : NativeType → Prop
  | .scalar _ => True
  | .struct nested => nested.size ≠ 0 ∧ nested.platform = platform

theorem resolveField_eq_ok_iff {platform : Platform} {type : NativeType} {abi : AbiType} :
    resolveField platform type = .ok abi ↔ abi = ⟨type, platform⟩ ∧ Embeds platform type := by
  cases type with
  | scalar own => simp [resolveField, NativeType.resolve, Embeds, eq_comm]
  | struct nested =>
    simp only [resolveField, NativeType.resolve, Embeds]
    split
    next empty => simp [empty]
    next filled =>
      split
      next same => simp [filled, same, eq_comm]
      next different => simp [different]

theorem Embeds.width_pos {platform : Platform} {type : NativeType} (embeds : Embeds platform type) :
    0 < (AbiType.mk type platform).width := by
  cases type with
  | scalar own => exact own.width_pos platform
  | struct nested => exact Nat.pos_of_ne_zero embeds.1

theorem Embeds.resolve {platform : Platform} {type : NativeType} (embeds : Embeds platform type) :
    type.resolve platform = .ok ⟨type, platform⟩ := by
  cases type with
  | scalar own => rfl
  | struct nested => exact if_pos embeds.2

private theorem placeField_eq_ok_iff {struct : String} {progress : Progress} {type : AbiType} {offset : Nat}
    {next : Progress} :
    placeField struct progress type = .ok (offset, next) ↔
      forward? progress.size type.alignment = some offset ∧ offset + type.width < wordBound ∧
        next = ⟨offset + type.width, max progress.alignment type.alignment⟩ := by
  unfold placeField
  cases rounded : forward? progress.size type.alignment with
  | none => simp
  | some start =>
    by_cases word : start + type.width < wordBound
    · simp only [addWords?, word, if_true, Except.ok.injEq, Prod.mk.injEq, Option.some.injEq]
      constructor
      · rintro ⟨rfl, rfl⟩
        exact ⟨rfl, word, rfl⟩
      · rintro ⟨rfl, _, rfl⟩
        exact ⟨rfl, rfl⟩
    · simp only [addWords?, word, if_false, reduceCtorEq, Option.some.injEq, false_iff]
      rintro ⟨rfl, below, _⟩
      exact word below

/-- Fields go to their places one after the other, from one state of progress to another. -/
inductive Placed (platform : Platform) :
    Progress → List SchemaField → List LayoutField → Progress → Prop
  | nil (progress) : Placed platform progress [] [] progress
  | cons {progress field offset rest placed last}
      (embeds : Embeds platform field.type)
      (rounded : forward? progress.size (AbiType.mk field.type platform).alignment = some offset)
      (word : offset + (AbiType.mk field.type platform).width < wordBound)
      (tail : Placed platform ⟨offset + (AbiType.mk field.type platform).width,
        max progress.alignment (AbiType.mk field.type platform).alignment⟩ rest placed last) :
      Placed platform progress (field :: rest) (⟨field.name, offset, field.type⟩ :: placed) last

private theorem placeFields_eq_ok_iff {struct : String} {platform : Platform} {progress last : Progress}
    {fields : List SchemaField} {placed : List LayoutField} :
    placeFields struct platform progress fields = .ok (placed, last) ↔
      Placed platform progress fields placed last := by
  induction fields generalizing progress placed with
  | nil =>
    simp only [placeFields, Except.ok.injEq, Prod.mk.injEq]
    constructor
    · rintro ⟨rfl, rfl⟩
      exact .nil _
    · rintro ⟨⟩
      exact ⟨rfl, rfl⟩
  | cons field rest ih =>
    constructor
    · intro ok
      obtain ⟨abi, resolved, placing⟩ := bind_eq_ok.mp ok
      obtain ⟨⟨offset, next⟩, positioned, others⟩ := bind_eq_ok.mp placing
      obtain ⟨⟨tail, final⟩, remaining, done⟩ := bind_eq_ok.mp others
      cases done
      obtain ⟨rfl, embeds⟩ := resolveField_eq_ok_iff.mp resolved
      obtain ⟨rounded, word, rfl⟩ := placeField_eq_ok_iff.mp positioned
      exact .cons embeds rounded word (ih.mp remaining)
    · rintro (_ | ⟨embeds, rounded, word, tail⟩)
      simp only [placeFields, resolveField_eq_ok_iff.mpr ⟨rfl, embeds⟩, ok_bind,
        placeField_eq_ok_iff.mpr ⟨rounded, word, rfl⟩, ih.mpr tail]

theorem layout_eq_ok_iff {schema : StructSchema} {platform : Platform} {layout : StructLayout} :
    schema.layout platform = .ok layout ↔
      schema.sorted.map (·.slot) = List.range schema.sorted.length ∧
      (schema.sorted.map (·.name)).Nodup ∧
      ∃ last, Placed platform ⟨0, 1⟩ schema.sorted layout.fields last ∧
        forward? last.size last.alignment = some layout.size ∧
        layout = ⟨schema.name, layout.size, last.alignment, platform, layout.fields⟩ := by
  have checks := @checkFields_eq_ok_iff schema.name 0 none [] schema.sorted (by simp)
  simp only [List.not_mem_nil, not_false_eq_true, implies_true, and_true,
    ← List.range_eq_range'] at checks
  constructor
  · intro ok
    obtain ⟨⟨⟩, checked, ok⟩ := bind_eq_ok.mp ok
    obtain ⟨⟨fields, last⟩, placed, ok⟩ := bind_eq_ok.mp ok
    obtain ⟨slots, names⟩ := checks.mp checked
    dsimp only at ok
    split at ok
    next => cases ok
    next size rounded =>
      cases ok
      exact ⟨slots, names, last, placeFields_eq_ok_iff.mp placed, rounded, rfl⟩
  · rintro ⟨slots, names, last, placed, rounded, same⟩
    rw [same]
    simp only [StructSchema.layout, checks.mpr ⟨slots, names⟩, ok_bind,
      placeFields_eq_ok_iff.mpr placed, rounded]

theorem platform_layout {schema : StructSchema} {platform : Platform} {layout : StructLayout}
    (laid : schema.layout platform = .ok layout) : layout.platform = platform := by
  obtain ⟨_, _, _, _, _, same⟩ := layout_eq_ok_iff.mp laid
  rw [same]

theorem sorted_perm (schema : StructSchema) : schema.sorted.Perm schema.fields :=
  List.mergeSort_perm _ _

namespace Placed

variable {platform : Platform} {progress last : Progress} {fields : List SchemaField}
  {placed : List LayoutField}

theorem same_fields (steps : Placed platform progress fields placed last) :
    placed.map (fun field => (field.name, field.type)) =
      fields.map fun field => (field.name, field.type) := by
  induction steps with
  | nil => rfl
  | cons _ _ _ _ ih => simp [ih]

theorem declared (steps : Placed platform progress fields placed last) {field : LayoutField}
    (member : field ∈ placed) : ∃ source ∈ fields, source.name = field.name ∧ source.type = field.type := by
  have pair : (field.name, field.type) ∈ fields.map fun field => (field.name, field.type) :=
    steps.same_fields ▸ List.mem_map_of_mem member
  obtain ⟨source, inside, same⟩ := List.mem_map.mp pair
  obtain ⟨name, type⟩ := Prod.mk.inj same
  exact ⟨source, inside, name, type⟩

theorem embeds (steps : Placed platform progress fields placed last) {field : LayoutField}
    (member : field ∈ placed) : Embeds platform field.type := by
  induction steps with
  | nil => cases member
  | cons embeds _ _ _ ih =>
    rcases List.mem_cons.mp member with rfl | inside
    · exact embeds
    · exact ih inside

private theorem size_le (steps : Placed platform progress fields placed last) : progress.size ≤ last.size := by
  induction steps with
  | nil => exact Nat.le_refl _
  | cons _ rounded _ _ ih => exact (le_of_forward? rounded).trans ((Nat.le_add_right _ _).trans ih)

theorem within (steps : Placed platform progress fields placed last) {field : LayoutField}
    (member : field ∈ placed) :
    progress.size ≤ field.offset ∧ field.offset + (AbiType.mk field.type platform).width ≤ last.size := by
  induction steps with
  | nil => cases member
  | cons _ rounded _ tail ih =>
    have start := le_of_forward? rounded
    rcases List.mem_cons.mp member with rfl | inside
    · exact ⟨start, tail.size_le⟩
    · obtain ⟨above, below⟩ := ih inside
      exact ⟨start.trans ((Nat.le_add_right _ _).trans above), below⟩

theorem separate (steps : Placed platform progress fields placed last) :
    placed.Pairwise fun earlier later =>
      earlier.offset + (AbiType.mk earlier.type platform).width ≤ later.offset := by
  induction steps with
  | nil => exact .nil
  | cons _ _ _ tail ih => exact .cons (fun later inside => (tail.within inside).1) ih

end Placed
end StructSchema
end Interop
