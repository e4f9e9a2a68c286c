import Interop.Proofs.CType.Placement
import Mathlib.Data.List.Perm.Basic
import Mathlib.Data.List.Induction

/-! The fields of a struct in the order of their slots, up to the first one that is out of place.
Main statements: `inSlotOrder_sorted`, and `checkFields_append` about the fields behind those that pass. -/
namespace Interop

/-- A property of the empty list holds of a whole list, or up to some element that breaks it. -/
theorem holds_or_broken {α : Type} {property : List α → Prop} (start : property []) (list : List α) :
    property list ∨
      ∃ before next after, list = before ++ next :: after ∧ property before ∧ ¬ property (before ++ [next]) := by
  induction list using List.reverseRecOn with
  | nil => exact .inl start
  | append_singleton init last ih =>
    obtain holds | ⟨before, next, after, same, holds, broken⟩ := ih
    · by_cases whole : property (init ++ [last])
      · exact .inl whole
      · exact .inr ⟨init, last, [], rfl, holds, whole⟩
    · refine .inr ⟨before, next, after ++ [last], ?_, holds, broken⟩
      rw [same, List.append_assoc, List.cons_append]

namespace StructSchema

/-- Sorted by slot, where the fields of one slot stay in the order of their declaration. -/
structure InSlotOrder (fields order : List SchemaField) : Prop where
  perm : order.Perm fields
  sorted : order.Pairwise fun a b => a.slot ≤ b.slot
  stable : ∀ slot, order.filter (·.slot = slot) = fields.filter (·.slot = slot)

theorem inSlotOrder_sorted (schema : StructSchema) : InSlotOrder schema.fields schema.sorted := by
  have transitive : ∀ a b c : SchemaField, decide (a.slot ≤ b.slot) = true → decide (b.slot ≤ c.slot) = true →
      decide (a.slot ≤ c.slot) = true := by
    simp only [decide_eq_true_eq]
    omega
  have total : ∀ a b : SchemaField, (decide (a.slot ≤ b.slot) || decide (b.slot ≤ a.slot)) = true := by
    simp only [Bool.or_eq_true, decide_eq_true_eq]
    omega
  have perm := schema.sorted_perm
  have sorted := List.pairwise_mergeSort transitive total schema.fields
  simp only [decide_eq_true_eq] at sorted
  refine ⟨perm, sorted, ?_⟩
  intro slot
  have alike : (schema.fields.filter (·.slot = slot)).Pairwise fun a b => decide (a.slot ≤ b.slot) = true := by
    apply List.pairwise_of_forall_mem_list
    intro a first b second
    have here := (List.mem_filter.mp first).2
    have there := (List.mem_filter.mp second).2
    simp only [decide_eq_true_eq] at here there ⊢
    omega
  -- The fields of one slot are in order already, so sorting leaves them as they follow each other.
  have kept := (List.sublist_mergeSort transitive total alike List.filter_sublist).filter (·.slot = slot)
  rw [List.filter_filter] at kept
  simp only [Bool.and_self] at kept
  exact (kept.eq_of_length (perm.filter _).length_eq.symm).symm

structure Sound (fields : List SchemaField) : Prop where
  slots : fields.map (·.slot) = List.range fields.length
  names : (fields.map (·.name)).Nodup

namespace Sound

variable {fields : List SchemaField} {field : SchemaField}

theorem nil : Sound [] := ⟨rfl, .nil⟩

theorem append_singleton_iff :
    Sound (fields ++ [field]) ↔ Sound fields ∧ field.slot = fields.length ∧ field.name ∉ fields.map (·.name) := by
  have slots : (fields ++ [field]).map (·.slot) = List.range (fields ++ [field]).length ↔
      fields.map (·.slot) = List.range fields.length ∧ field.slot = fields.length := by
    simp [List.range_succ]
  have names : ((fields ++ [field]).map (·.name)).Nodup ↔
      (fields.map (·.name)).Nodup ∧ field.name ∉ fields.map (·.name) := by
    simp [List.nodup_append]
  constructor
  · intro sound
    obtain ⟨others, last⟩ := slots.mp sound.slots
    obtain ⟨distinct, new⟩ := names.mp sound.names
    exact ⟨⟨others, distinct⟩, last, new⟩
  · intro ⟨sound, last, new⟩
    exact ⟨slots.mpr ⟨sound.slots, last⟩, names.mpr ⟨sound.names, new⟩⟩

theorem slot_lt (sound : Sound fields) (member : field ∈ fields) : field.slot < fields.length := by
  have claimed : field.slot ∈ fields.map (·.slot) := List.mem_map_of_mem member
  rwa [sound.slots, List.mem_range] at claimed

theorem exists_of_slot (sound : Sound fields) {slot : Nat} (below : slot < fields.length) :
    ∃ field ∈ fields, field.slot = slot := by
  have claimed : slot ∈ fields.map (·.slot) := by rwa [sound.slots, List.mem_range]
  exact List.mem_map.mp claimed

theorem new (sound : Sound fields) (here : field.slot = fields.length) :
    ∀ prior, fields.getLast? = some prior → field.slot ≠ prior.slot := by
  intro prior found
  have below := sound.slot_lt (List.mem_of_getLast? found)
  omega

end Sound

theorem filter_getLast?_eq_none {before : List SchemaField} {field : SchemaField}
    (new : ∀ prior, before.getLast? = some prior → field.slot ≠ prior.slot) :
    before.getLast?.filter (fun prior => prior.slot == field.slot) = none := by
  apply Option.filter_eq_none_iff.mpr
  intro prior found
  simpa using (new prior found).symm

theorem checkFields_append (struct : String) {before : List SchemaField} (sound : Sound before)
    (rest : List SchemaField) :
    checkFields struct 0 none [] (before ++ rest) =
      checkFields struct before.length before.getLast? (before.map (·.name)).reverse rest := by
  induction before using List.reverseRecOn generalizing rest with
  | nil => rfl
  | append_singleton init last ih =>
    obtain ⟨earlier, here, new⟩ := Sound.append_singleton_iff.mp sound
    rw [List.append_assoc, List.singleton_append, ih earlier, checkFields,
      filter_getLast?_eq_none (earlier.new here)]
    simp [here, new]

theorem checkFields_of_sound (struct : String) {fields : List SchemaField} (sound : Sound fields) :
    checkFields struct 0 none [] fields = .ok () := by
  have checked := checkFields_append struct sound []
  rwa [List.append_nil] at checked

theorem sound_sorted_iff {schema : StructSchema} :
    Sound schema.sorted ↔ (schema.fields.map (·.slot)).Perm (List.range schema.fields.length) ∧
      (schema.fields.map (·.name)).Nodup := by
  have perm := schema.sorted_perm
  have length := perm.length_eq
  constructor
  · intro sound
    refine ⟨?_, (perm.map _).nodup_iff.mp sound.names⟩
    rw [← length, ← sound.slots]
    exact (perm.map _).symm
  · intro ⟨slots, names⟩
    refine ⟨?_, (perm.map _).nodup_iff.mpr names⟩
    have increasing : (schema.sorted.map (·.slot)).Pairwise (· ≤ ·) :=
      List.pairwise_map.mpr schema.inSlotOrder_sorted.sorted
    apply List.Perm.eq_of_pairwise _ increasing List.pairwise_le_range
    · rw [length]
      exact (perm.map _).trans slots
    · intro a b _ _
      exact Nat.le_antisymm

end StructSchema
end Interop
